import DepthFeed.Proofs.Decimal.Cut
import DepthFeed.Ticks

/-!
# Conversion of decimals to ticks

A decimal number of units is a tick count after two roundings: its product with the ticks of a unit
is cut to a decimal first, and that decimal is rounded to an integer. The first one never changes
anything. A unit has `10 ^ 8` ticks, and no more than eight digits have to go until a mantissa fits
again, so only zeros are dropped.

* `Ticks.RoundsTo`: the outcome for an exact amount that is rounded once.
* `Ticks.ofExact_roundsTo`: what makes a conversion such an outcome.
* `Decimal.IsCut.value_eq_mul_perUnit`: the product with the ticks of a unit is exact.
* `Ticks.ofDecimal_rounds_once`: conversion of decimals and of whole units.
-/

namespace DepthFeed

/-- The product of a decimal with the ticks of a unit is exact. -/
theorem Decimal.IsCut.value_eq_mul_perUnit {d p : Decimal} (h : IsCut (d.value * 10 ^ 8) p) :
    p.value = d.value * 10 ^ 8 := by
  obtain hfew | hmany := le_total d.scale 8
  · -- the product is an integer
    obtain ⟨more, hmore⟩ := Nat.exists_eq_add_of_le hfew
    refine h.value_eq_of_whole (n := d.mantissa * 10 ^ more * 10 ^ p.scale) ?_
    rw [hmore, pow_add, ← mul_assoc, value_mul_pow]
    push_cast
    rfl
  · -- with eight places less, the mantissa of the product is that of `d`
    obtain ⟨more, hmore⟩ := Nat.exists_eq_add_of_le hmany
    have hwhole : d.value * 10 ^ 8 * 10 ^ more = d.mantissa := by
      rw [mul_assoc, ← pow_add, ← hmore, value_mul_pow]
    refine h.value_eq_of_fits hwhole ?_
    rw [← abs_mul_pow, hwhole]
    exact abs_lt_limit d.abs_mantissa_lt

namespace Ticks

variable {m : Measure} {mode : OverflowMode} {x : ℚ} {n : ℤ} {outcome : Except Fault (Ticks m)}

/-- The outcome of a conversion of `x` ticks that rounds once, to `n`: the amount of `n` ticks if a
count can be `n`, otherwise a fault, or the end of the counts on the side of `x`. -/
structure RoundsTo (mode : OverflowMode) (x : ℚ) (n : ℤ) (outcome : Except Fault (Ticks m)) :
    Prop where
  nearest : IsNearestEven x n
  counted : IsSigned64 n → ∃ a : Ticks m, outcome = .ok a ∧ a.count.toInt = n
  trapped : ¬ IsSigned64 n → mode = .trapping → outcome = .error (.conversion m)
  stopped : ¬ IsSigned64 n → mode = .silent → outcome = .ok (if x < 0 then least else greatest)

/-- There is one outcome for each number. -/
theorem RoundsTo.outcome_eq {k : ℤ} {other : Except Fault (Ticks m)} (h : RoundsTo mode x n outcome)
    (hother : RoundsTo mode x k other) : outcome = other := by
  obtain rfl := h.nearest.unique hother.nearest
  by_cases hfits : IsSigned64 n
  · obtain ⟨⟨a⟩, rfl, ha⟩ := h.counted hfits
    obtain ⟨⟨b⟩, rfl, hb⟩ := hother.counted hfits
    obtain rfl : a = b := Int64.toInt_inj.1 (ha.trans hb.symm)
    rfl
  · cases mode with
    | trapping => rw [h.trapped hfits rfl, hother.trapped hfits rfl]
    | silent => rw [h.stopped hfits rfl, hother.stopped hfits rfl]

theorem toInt_ofInt_of_isSigned64 (h : IsSigned64 n) : (Int64.ofInt n).toInt = n :=
  Int64.toInt_ofInt_of_le h.1 h.2

theorem isSigned64_zero : IsSigned64 0 := by decide

theorem ofExact_of_isSigned64 (negative : Bool) (hfits : IsSigned64 n) :
    (ofExact mode negative (some n) : Except Fault (Ticks m)) = .ok ⟨Int64.ofInt n⟩ :=
  if_pos hfits

theorem ofExact_eq_beyond {exact : Option ℤ} (negative : Bool)
    (hbeyond : ∀ k ∈ exact, ¬ IsSigned64 k) :
    (ofExact mode negative exact : Except Fault (Ticks m)) = beyond mode negative := by
  cases exact with
  | none => rfl
  | some k => exact if_neg (hbeyond k rfl)

/-- A conversion rounds `x` once if its exact result is the nearest integer wherever that or the
result is a count, and if its sign is that of `x`. -/
theorem ofExact_roundsTo {exact : Option ℤ} {negative : Bool} (hnearest : IsNearestEven x n)
    (hsign : x ≠ 0 → negative = decide (x < 0)) (hfits : IsSigned64 n → exact = some n)
    (hcount : ∀ k ∈ exact, IsSigned64 k → k = n) :
    RoundsTo mode x n (ofExact mode negative exact : Except Fault (Ticks m)) := by
  by_cases hsigned : IsSigned64 n
  · rw [hfits hsigned, ofExact_of_isSigned64 negative hsigned]
    exact ⟨hnearest, fun _ => ⟨_, rfl, toInt_ofInt_of_isSigned64 hsigned⟩,
      fun h => absurd hsigned h, fun h => absurd hsigned h⟩
  · have hne : x ≠ 0 := by
      rintro rfl
      rw [hnearest.unique (IsNearestEven.intCast 0)] at hsigned
      exact hsigned isSigned64_zero
    have hbeyond : ∀ k ∈ exact, ¬ IsSigned64 k := by
      intro k hk hsigned'
      exact hsigned (hcount k hk hsigned' ▸ hsigned')
    rw [ofExact_eq_beyond negative hbeyond, hsign hne]
    refine ⟨hnearest, fun h => absurd h hsigned, ?_, ?_⟩
    · rintro - rfl
      rfl
    · rintro - rfl
      simp only [beyond, decide_eq_true_eq]

/-- A number that is further from zero than the tick counts is rounded to none of them. -/
theorem not_isSigned64_of_le_abs (hnearest : IsNearestEven x n) (hsize : 2 ^ 63 + 1 ≤ |x|) :
    ¬ IsSigned64 n := by
  rintro ⟨hlow, hhigh⟩
  have hcount : |(n : ℚ)| ≤ 2 ^ 63 := by exact_mod_cast abs_le.2 ⟨hlow, hhigh.le⟩
  have htriangle := abs_sub_abs_le_abs_sub x n
  linarith [hnearest.dist_le_half]

theorem not_isSigned64_of_limit_le (hnearest : IsNearestEven x n) (hsize : Decimal.limit ≤ |x|) :
    ¬ IsSigned64 n :=
  not_isSigned64_of_le_abs hnearest (le_trans (by norm_num [Decimal.limit]) hsize)

theorem value_perUnit : (Decimal.whole perUnit).value = 10 ^ 8 := by
  rw [Decimal.value_whole, show perUnit.toInt = 10 ^ 8 from rfl]
  norm_num

/-- The product of a decimal with the ticks of a unit, where it has one. -/
theorem value_mul?_perUnit {d p : Decimal} (h : d.mul? (Decimal.whole perUnit) = some p) :
    p.value = d.value * 10 ^ 8 := by
  have hcut := Decimal.mul?_isCut (b := Decimal.whole perUnit) d.scale_le h
  rw [value_perUnit] at hcut
  exact hcut.value_eq_mul_perUnit

theorem ofDecimal_roundsTo (mode : OverflowMode) (d : Decimal)
    (hnearest : IsNearestEven (d.value * 10 ^ 8) n) :
    RoundsTo mode (d.value * 10 ^ 8) n (ofDecimal mode d : Except Fault (Ticks m)) := by
  have hrounds : ∀ p ∈ d.mul? (Decimal.whole perUnit), p.round = n := by
    intro p hp
    refine p.round_isNearestEven.unique ?_
    rwa [value_mul?_perUnit hp]
  refine ofExact_roundsTo hnearest ?_ ?_ ?_
  · intro _
    rw [decide_eq_decide, ← d.value_lt_zero_iff, mul_neg_iff]
    norm_num
  · intro hfits
    cases hproduct : d.mul? (Decimal.whole perUnit) with
    | some p => rw [Option.map_some, hrounds p hproduct]
    | none =>
      rw [Decimal.mul?_eq_none_iff (b := Decimal.whole perUnit) d.scale_le,
        value_perUnit] at hproduct
      exact absurd hfits (not_isSigned64_of_limit_le hnearest hproduct)
  · intro k hk _
    obtain ⟨p, hp, rfl⟩ := Option.map_eq_some_iff.1 hk
    exact hrounds p hp

theorem ofUnits_roundsTo (mode : OverflowMode) (units : Int64) :
    RoundsTo mode (units.toInt * 10 ^ 8) (units.toInt * 10 ^ 8)
      (ofUnits mode units : Except Fault (Ticks m)) := by
  refine ofExact_roundsTo ?_ ?_ ?_ ?_
  · have hwhole := IsNearestEven.intCast (units.toInt * 10 ^ 8)
    push_cast at hwhole
    exact hwhole
  · intro _
    rw [decide_eq_decide, Int64.lt_iff_toInt_lt, Int64.toInt_zero, mul_neg_iff]
    norm_num
  · intro _
    rfl
  · rintro k ⟨rfl⟩ -
    rfl

/-- A decimal number of units is converted to the nearest tick count, halves to even, in a single
rounding: its product with the ticks of a unit is exact wherever it is a decimal. Whole units are
converted like the decimals that are equal to them. -/
theorem ofDecimal_rounds_once (mode : OverflowMode) (d : Decimal) :
    (∃ n, RoundsTo mode (d.value * 10 ^ 8) n (ofDecimal mode d : Except Fault (Ticks m))) ∧
      (∀ p ∈ d.mul? (Decimal.whole perUnit), p.value = d.value * 10 ^ 8) ∧
      ∀ units : Int64, d.value = units.toInt →
        (ofUnits mode units : Except Fault (Ticks m)) = ofDecimal mode d := by
  obtain ⟨n, hnearest⟩ := exists_isNearestEven (d.value * 10 ^ 8)
  have hrounds := ofDecimal_roundsTo (m := m) mode d hnearest
  refine ⟨⟨n, hrounds⟩, fun p => value_mul?_perUnit, ?_⟩
  intro units hunits
  rw [hunits] at hrounds
  exact (ofUnits_roundsTo mode units).outcome_eq hrounds

/-- Eight digits of the product have to go before a mantissa holds the greatest one, and three units
may be written with two places. -/
theorem ofDecimal_rounds_once_greatest_mantissa :
    let d : Decimal := { mantissa := 2 ^ 96 - 1, scale := 28 }
    let three : Decimal := { mantissa := 300, scale := 2 }
    (∃ n, RoundsTo .trapping (d.value * 10 ^ 8) n (ofDecimal .trapping d : Except Fault Price)) ∧
      (∃ p ∈ d.mul? (Decimal.whole perUnit), p.scale = 20 ∧ p.value = d.value * 10 ^ 8) ∧
      (ofDecimal .trapping d : Except Fault Price) = .ok ⟨792281625⟩ ∧
      three.value = (3 : Int64).toInt ∧
      (ofUnits .trapping 3 : Except Fault Price) = ofDecimal .trapping three := by
  intro d three
  obtain ⟨hrounds, hproduct, -⟩ := ofDecimal_rounds_once (m := .price) .trapping d
  have hthree : three.value = (3 : Int64).toInt := by
    rw [show (3 : Int64).toInt = 3 from rfl]
    norm_num [Decimal.value, three]
  obtain ⟨p, hp, hplaces⟩ : ∃ p ∈ d.mul? (Decimal.whole perUnit), p.scale = 20 := by decide
  exact ⟨hrounds, ⟨p, hp, hplaces, hproduct p hp⟩, by decide, hthree,
    (ofDecimal_rounds_once .trapping three).2.2 3 hthree⟩

end Ticks

end DepthFeed

import DepthFeed.Proofs.Decimal.Nearest
import DepthFeed.Proofs.Decimal.Negation

/-!
# Cutting an exact number to a decimal

A number is cut to the nearest decimal with as many places as a mantissa below `2 ^ 96` leaves it.
The places that are left depend on the number alone and not on the places it was written with, and
where a mantissa grows too long for one more place, it has room to grow: since `2 ^ 96` leaves 6
modulo 10, the number next to the bound is rounded up. So cutting keeps the order.

* `Decimal.value`: the number that a decimal stands for.
* `Decimal.IsCut`: the decimal that a number is cut to.
* `Decimal.cut?_isCut`, `Decimal.cut?_eq_none_iff`: what cutting a number gives, and when it fails.
* `Decimal.IsCut.value_le_value`: cutting keeps the order of numbers.
-/

namespace DepthFeed.Decimal

/-- The number that a decimal stands for. -/
def value (d : Decimal) : ℚ := d.mantissa / 10 ^ d.scale

/-- The least size that is rounded to a mantissa of `2 ^ 96`. -/
def limit : ℚ := 2 ^ 96 - 1 / 2

/-- `p` is `x` rounded to as many places as its mantissa has room for; it has fewer of them only
where it is `x` itself. -/
structure IsCut (x : ℚ) (p : Decimal) : Prop where
  nearest : IsNearestEven (x * 10 ^ p.scale) p.mantissa
  exact_or_full : p.value = x ∨ limit ≤ |x| * 10 ^ (p.scale + 1)

variable {x y : ℚ} {p q : Decimal} {mantissa exact : Int} {scale : Nat}

theorem value_neg (d : Decimal) : d.neg.value = -d.value := by
  simp [value, neg, neg_div]

theorem value_mul_pow (d : Decimal) : d.value * 10 ^ d.scale = d.mantissa :=
  div_mul_cancel₀ _ (by positivity)

theorem value_lt_zero_iff (d : Decimal) : d.value < 0 ↔ d.mantissa < 0 := by
  rw [value, div_lt_iff₀ (by positivity), zero_mul]
  exact Int.cast_lt_zero

theorem abs_mantissa_lt (d : Decimal) : |d.mantissa| < 2 ^ 96 := by
  have := d.mantissa_lt
  rw [Int.abs_eq_natAbs]
  omega

theorem abs_lt_limit {n : ℤ} (h : |n| < 2 ^ 96) : |(n : ℚ)| < limit := by
  have hle : |(n : ℚ)| ≤ 2 ^ 96 - 1 := by exact_mod_cast Int.le_sub_one_of_lt h
  exact hle.trans_lt (by norm_num [limit])

theorem value_whole (n : Int64) : (whole n).value = n.toInt := by
  simp [value, whole, ofInt64]

theorem round_isNearestEven (d : Decimal) : IsNearestEven d.value d.round := by
  have h := roundHalfEven_isNearestEven d.mantissa (Nat.pow_pos (n := d.scale) (by decide : 0 < 10))
  rwa [Nat.cast_pow] at h

/-! ## What cutting gives -/

theorem ofParts?_eq_some_iff :
    ofParts? mantissa scale = some p ↔ p.mantissa = mantissa ∧ p.scale = scale := by
  unfold ofParts?
  constructor
  · intro h
    split at h
    · cases h
      exact ⟨rfl, rfl⟩
    · cases h
  · rintro ⟨rfl, rfl⟩
    rw [dif_pos ⟨p.mantissa_lt, p.scale_le⟩]

theorem ofParts?_eq_none_iff (hscale : scale ≤ 28) :
    ofParts? mantissa scale = none ↔ ¬ |mantissa| < 2 ^ 96 := by
  have hsize : |mantissa| < 2 ^ 96 ↔ mantissa.natAbs < 0x1_0000_0000_0000_0000_0000_0000 := by
    rw [Int.abs_eq_natAbs]
    omega
  rw [hsize]
  unfold ofParts?
  by_cases hfits : mantissa.natAbs < 0x1_0000_0000_0000_0000_0000_0000
  · simp [hfits, hscale]
  · simp [hfits]

/-- A number of `scale` places, rounded to fewer of them. -/
theorem roundHalfEven_pow_isNearestEven (exact : Int) {dropped : Nat} (hdropped : dropped ≤ scale) :
    IsNearestEven (exact / 10 ^ scale * 10 ^ (scale - dropped))
      (roundHalfEven exact (Nat.pow 10 dropped)) := by
  obtain ⟨kept, rfl⟩ := Nat.exists_eq_add_of_le hdropped
  have hnumber : (exact : ℚ) / 10 ^ (dropped + kept) * 10 ^ (dropped + kept - dropped) =
      exact / 10 ^ dropped := by
    rw [Nat.add_sub_cancel_left, pow_add]
    field_simp
  have h := roundHalfEven_isNearestEven exact (Nat.pow_pos (n := dropped) (by decide : 0 < 10))
  rw [Nat.cast_pow] at h
  rwa [hnumber]

theorem abs_mul_pow (x : ℚ) (places : Nat) : |x * 10 ^ places| = |x| * 10 ^ places := by
  rw [abs_mul, abs_of_nonneg (a := (10 : ℚ) ^ places) (by positivity)]

theorem le_abs_mul_pow (x : ℚ) (places : Nat) : |x| ≤ |x| * 10 ^ places :=
  le_mul_of_one_le_right (abs_nonneg x) (one_le_pow₀ (by norm_num))

/-- A rounded number has a mantissa below `2 ^ 96` if it is below the limit. -/
theorem abs_lt_iff {n : ℤ} {places : Nat} (h : IsNearestEven (x * 10 ^ places) n) :
    |n| < 2 ^ 96 ↔ |x| * 10 ^ places < limit := by
  have hbound : |n| < 2 ^ 96 ↔ |x * 10 ^ places| < ((2 ^ 96 : ℤ) : ℚ) - 1 / 2 :=
    h.abs_lt_iff (by decide)
  rw [hbound, abs_mul_pow, limit]
  norm_num

/-- Dropping some of the places of a number is not enough if the number is too large for the others. -/
theorem ofParts?_roundHalfEven_eq_none_iff {dropped : Nat} (hscale : scale ≤ 28)
    (hdropped : dropped ≤ scale) :
    ofParts? (roundHalfEven exact (Nat.pow 10 dropped)) (scale - dropped) = none ↔
      limit ≤ |(exact : ℚ) / 10 ^ scale| * 10 ^ (scale - dropped) := by
  rw [ofParts?_eq_none_iff (by omega), abs_lt_iff (roundHalfEven_pow_isNearestEven exact hdropped),
    not_lt]

/-- What is found first in a range is found at no smaller number. -/
theorem exists_of_findSome?_range {α : Type} {f : Nat → Option α} {a : α} {n : Nat}
    (h : (List.range n).findSome? f = some a) : ∃ i < n, f i = some a ∧ ∀ j < i, f j = none := by
  induction n with
  | zero => cases h
  | succ n ih =>
    rw [List.range_succ, List.findSome?_append, Option.or_eq_some_iff] at h
    obtain hearlier | ⟨hnone, hlast⟩ := h
    · obtain ⟨i, hi, hfound, hfirst⟩ := ih hearlier
      exact ⟨i, by omega, hfound, hfirst⟩
    · refine ⟨n, by omega, by simpa using hlast, ?_⟩
      intro j hj
      exact List.findSome?_eq_none_iff.1 hnone j (List.mem_range.2 hj)

theorem cut?_isCut (hscale : scale ≤ 28) (h : cut? exact scale = some p) :
    IsCut (exact / 10 ^ scale) p := by
  obtain ⟨dropped, hdropped, hfound, hfirst⟩ := exists_of_findSome?_range h
  obtain ⟨hmantissa, hplaces⟩ := ofParts?_eq_some_iff.1 hfound
  have hnearest := roundHalfEven_pow_isNearestEven exact (Nat.le_of_lt_succ hdropped)
  rw [← hmantissa, ← hplaces] at hnearest
  refine ⟨hnearest, ?_⟩
  cases dropped with
  | zero =>
    left
    have hwhole : IsNearestEven ((exact : ℚ) / 10 ^ scale * 10 ^ p.scale) exact := by
      rw [hplaces, Nat.sub_zero, div_mul_cancel₀ _ (by positivity)]
      exact .intCast exact
    rw [value, hnearest.unique hwhole, hplaces, Nat.sub_zero]
  | succ dropped =>
    right
    have hfull := (ofParts?_roundHalfEven_eq_none_iff hscale (by omega)).1
      (hfirst dropped (by omega))
    rwa [show scale - dropped = p.scale + 1 by omega] at hfull

theorem cut?_eq_none_iff (hscale : scale ≤ 28) :
    cut? exact scale = none ↔ limit ≤ |(exact : ℚ) / 10 ^ scale| := by
  unfold cut?
  rw [List.findSome?_eq_none_iff]
  constructor
  · intro h
    have hall := (ofParts?_roundHalfEven_eq_none_iff hscale le_rfl).1
      (h scale (List.mem_range.2 (Nat.lt_succ_self scale)))
    simpa using hall
  · intro h dropped hdropped
    rw [List.mem_range] at hdropped
    rw [ofParts?_roundHalfEven_eq_none_iff hscale (by omega)]
    exact h.trans (le_abs_mul_pow _ _)

theorem value_mul_value (a b : Decimal) :
    a.value * b.value = (a.mantissa * b.mantissa : ℤ) / 10 ^ (a.scale + b.scale) := by
  rw [value, value, div_mul_div_comm, ← pow_add]
  push_cast
  rfl

theorem mul?_isCut {a b : Decimal} (hscale : a.scale + b.scale ≤ 28) (h : a.mul? b = some p) :
    IsCut (a.value * b.value) p := by
  rw [value_mul_value]
  exact cut?_isCut hscale h

theorem mul?_eq_none_iff {a b : Decimal} (hscale : a.scale + b.scale ≤ 28) :
    a.mul? b = none ↔ limit ≤ |a.value * b.value| := by
  rw [value_mul_value]
  exact cut?_eq_none_iff hscale

theorem abs_value_mul_pow_lt (d : Decimal) : |d.value| * 10 ^ d.scale < limit := by
  rw [← abs_mul_pow, value_mul_pow]
  exact abs_lt_limit d.abs_mantissa_lt

theorem abs_value_lt (d : Decimal) : |d.value| < limit :=
  (le_abs_mul_pow _ _).trans_lt d.abs_value_mul_pow_lt

/-! ## A cut number and the exact one -/

namespace IsCut

theorem neg (h : IsCut x p) : IsCut (-x) p.neg where
  nearest := by
    rw [neg_mul]
    exact h.nearest.neg
  exact_or_full := by
    rw [value_neg, abs_neg, neg_inj]
    exact h.exact_or_full

/-- A number whose places all have room is not changed. -/
theorem value_eq_of_whole (h : IsCut x p) {n : ℤ} (hwhole : x * 10 ^ p.scale = n) : p.value = x := by
  have hnearest : IsNearestEven (x * 10 ^ p.scale) n := hwhole ▸ .intCast n
  rw [value, h.nearest.unique hnearest, ← hwhole, mul_div_cancel_right₀ _ (by positivity)]

/-- A number that a mantissa holds with all its places is not changed. -/
theorem value_eq_of_fits (h : IsCut x p) {n : ℤ} (hwhole : x * 10 ^ scale = n)
    (hfits : |x| * 10 ^ scale < limit) : p.value = x := by
  obtain hexact | hfull := h.exact_or_full
  · exact hexact
  · have hplaces : scale ≤ p.scale := by
      by_contra! hfew
      have hpow : (10 : ℚ) ^ (p.scale + 1) ≤ 10 ^ scale := pow_le_pow_right₀ (by norm_num) hfew
      have hgrow : |x| * 10 ^ (p.scale + 1) ≤ |x| * 10 ^ scale := by gcongr
      linarith
    obtain ⟨more, hmore⟩ := Nat.exists_eq_add_of_le hplaces
    refine h.value_eq_of_whole (n := n * 10 ^ more) ?_
    rw [hmore, pow_add, ← mul_assoc, hwhole]
    push_cast
    rfl

/-- A cut number is off by half a unit of its last place at most. -/
theorem dist_mul_pow_le (h : IsCut x p) : |x - p.value| * 10 ^ p.scale ≤ 1 / 2 := by
  rw [← abs_mul_pow, sub_mul, value_mul_pow]
  exact h.nearest.dist_le_half

theorem abs_mul_pow_lt_limit (h : IsCut x p) : |x| * 10 ^ p.scale < limit := by
  rw [← abs_lt_iff h.nearest]
  exact p.abs_mantissa_lt

theorem size_lt_limit (h : IsCut x p) : |x| < limit :=
  (le_abs_mul_pow _ _).trans_lt h.abs_mul_pow_lt_limit

theorem value_nonneg (h : IsCut x p) (hx : 0 ≤ x) : 0 ≤ p.value := by
  have hmantissa : 0 ≤ p.mantissa := by
    refine IsNearestEven.le_of_le (IsNearestEven.intCast 0) h.nearest ?_
    rw [Int.cast_zero]
    positivity
  unfold value
  positivity

/-! ## Order -/

/-- A number without room for another place leaves a mantissa without room for another digit. -/
theorem le_abs_value_mul_pow (h : IsCut x p) (hfull : limit ≤ |x| * 10 ^ (p.scale + 1)) :
    limit ≤ |p.value| * 10 ^ (p.scale + 1) := by
  -- the tenth part of `2 ^ 96` ends in .6, so that of the limit is rounded up already
  have hdigits : 7922816251426433759354395034 ≤ |p.mantissa| := by
    rw [pow_succ, ← mul_assoc, ← abs_mul_pow, limit] at hfull
    rw [← not_lt, h.nearest.abs_lt_iff (by decide), not_lt]
    norm_num at hfull ⊢
    linarith
  have hcast : (7922816251426433759354395034 : ℚ) ≤ |(p.mantissa : ℚ)| := by exact_mod_cast hdigits
  rw [pow_succ (10 : ℚ), ← mul_assoc, ← abs_mul_pow, value_mul_pow, limit]
  linarith

/-- Cutting keeps the order of two numbers if the lower one is left no more places. -/
theorem value_le_value_of_scale_le (hx : IsCut x p) (hy : IsCut y q) (hle : x ≤ y)
    (hscale : p.scale ≤ q.scale) : p.value ≤ q.value := by
  obtain hexact | hfull := hx.exact_or_full
  · -- `x` has no more places than the higher number is cut to
    obtain ⟨more, hmore⟩ := Nat.exists_eq_add_of_le hscale
    have hwhole : x * 10 ^ q.scale = ((p.mantissa * 10 ^ more : ℤ) : ℚ) := by
      rw [← hexact, hmore, pow_add, ← mul_assoc, value_mul_pow]
      push_cast
      rfl
    have hown : IsNearestEven (x * 10 ^ q.scale) (p.mantissa * 10 ^ more) := hwhole ▸ .intCast _
    have hrounded := hown.le_of_le hy.nearest (mul_le_mul_of_nonneg_right hle (by positivity))
    rw [hexact, value, le_div_iff₀ (by positivity), hwhole]
    exact_mod_cast hrounded
  · obtain heq | hlt := hscale.eq_or_lt
    · have hnearest := hx.nearest
      rw [heq] at hnearest
      have hrounded := hnearest.le_of_le hy.nearest (mul_le_mul_of_nonneg_right hle (by positivity))
      rw [value, value, heq]
      gcongr
    · -- the lower number is the larger one in size, so both are negative or they differ in sign
      have hpow : (10 : ℚ) ^ (p.scale + 1) ≤ 10 ^ q.scale := pow_le_pow_right₀ (by norm_num) hlt
      have hsize : |y| < |x| := by
        refine lt_of_mul_lt_mul_right (a := (10 : ℚ) ^ (p.scale + 1)) ?_ (by positivity)
        calc |y| * 10 ^ (p.scale + 1) ≤ |y| * 10 ^ q.scale := by gcongr
          _ < limit := hy.abs_mul_pow_lt_limit
          _ ≤ |x| * 10 ^ (p.scale + 1) := hfull
      have hcutSize : |q.value| < |p.value| := by
        refine lt_of_mul_lt_mul_right (a := (10 : ℚ) ^ (p.scale + 1)) ?_ (by positivity)
        calc |q.value| * 10 ^ (p.scale + 1) ≤ |q.value| * 10 ^ q.scale := by gcongr
          _ < limit := abs_value_mul_pow_lt q
          _ ≤ |p.value| * 10 ^ (p.scale + 1) := hx.le_abs_value_mul_pow hfull
      have hnegative : x ≤ 0 := by
        by_contra! hpositive
        rw [abs_of_pos hpositive] at hsize
        linarith [le_abs_self y]
      have hcutNegative : p.value ≤ 0 := by
        have := hx.neg.value_nonneg (neg_nonneg.2 hnegative)
        rw [value_neg] at this
        linarith
      rw [abs_of_nonpos hcutNegative] at hcutSize
      linarith [neg_abs_le q.value]

/-- Cutting keeps the order. -/
theorem value_le_value (hx : IsCut x p) (hy : IsCut y q) (hle : x ≤ y) : p.value ≤ q.value := by
  rcases le_total p.scale q.scale with hscale | hscale
  · exact value_le_value_of_scale_le hx hy hle hscale
  · have h := value_le_value_of_scale_le hy.neg hx.neg (neg_le_neg hle) hscale
    rw [value_neg, value_neg] at h
    exact neg_le_neg_iff.1 h

end IsCut

end DepthFeed.Decimal

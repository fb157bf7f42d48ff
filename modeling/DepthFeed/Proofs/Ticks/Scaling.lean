import DepthFeed.Proofs.Ticks.Conversion

/-!
# Products with a decimal factor

The product of a tick count with a decimal is rounded twice: it is cut to a decimal first, and that
is rounded to an integer. Near the tick counts at least nine places are left by the first rounding,
so it changes the integer only where it makes a number that is not halfway between two integers
halfway. It then takes the even neighbour, although the product may be closer to the odd one.

* `Ticks.product`, `Ticks.cutProduct`: the exact product and the decimal that it is cut to.
* `Ticks.Misleads`: a half that hides the closer integer of a number.
* `Ticks.misleads_iff`: the second rounding goes elsewhere exactly from such a half.
* `Ticks.scale_roundsTo_iff`: where the product is rounded as if it were rounded once.
-/

namespace DepthFeed

variable {x : ℚ} {n k : ℤ}

/-! ## Cut numbers near the tick counts -/

namespace Decimal.IsCut

variable {p : Decimal}

/-- A number of the size of tick counts keeps nine places where it is changed at all. -/
theorem nine_le_scale (h : IsCut x p) (hne : p.value ≠ x) (hsize : |x| ≤ 2 ^ 64) :
    9 ≤ p.scale := by
  have hfull := h.exact_or_full.resolve_left hne
  by_contra! hfew
  have hpow : (10 : ℚ) ^ (p.scale + 1) ≤ 10 ^ 9 := pow_le_pow_right₀ (by norm_num) (by omega)
  have hlimit : limit ≤ 2 ^ 64 * 10 ^ 9 := hfull.trans (by gcongr)
  norm_num [limit] at hlimit

theorem dist_le (h : IsCut x p) (hsize : |x| ≤ 2 ^ 64) : |x - p.value| ≤ 5 / 10 ^ 10 := by
  by_cases hne : p.value = x
  · rw [hne, sub_self, abs_zero]
    positivity
  · have hpow : (10 : ℚ) ^ 9 ≤ 10 ^ p.scale :=
      pow_le_pow_right₀ (by norm_num) (h.nine_le_scale hne hsize)
    have hdist : |x - p.value| * 10 ^ 9 ≤ 1 / 2 := by
      calc |x - p.value| * 10 ^ 9 ≤ |x - p.value| * 10 ^ p.scale := by gcongr
        _ ≤ 1 / 2 := h.dist_mul_pow_le
    linarith

/-- No number moves by more than half a unit. -/
theorem dist_le_half (h : IsCut x p) : |x - p.value| ≤ 1 / 2 :=
  (le_abs_mul_pow _ _).trans h.dist_mul_pow_le

/-- A cut number keeps its sign, or it is zero. -/
theorem sign_value (h : IsCut x p) (hne : p.value ≠ 0) : x ≠ 0 ∧ (p.value < 0 ↔ x < 0) := by
  have hup : 0 ≤ x → 0 ≤ p.value := h.value_nonneg
  have hdown : x ≤ 0 → p.value ≤ 0 := by
    intro hx
    have hneg := h.neg.value_nonneg (neg_nonneg.2 hx)
    rw [value_neg] at hneg
    exact neg_nonneg.1 hneg
  refine ⟨?_, ?_, ?_⟩
  · rintro rfl
    exact hne (le_antisymm (hdown le_rfl) (hup le_rfl))
  · intro hv
    by_contra! hx
    exact (hup hx).not_gt hv
  · intro hx
    exact (hdown hx.le).lt_of_ne hne

/-- A half is a decimal itself, so a number does not pass it while it is cut. -/
theorem dist_lt_half (h : IsCut x p) (hplaces : 0 < p.scale) (hn : |p.value - n| < 1 / 2) :
    |x - n| < 1 / 2 := by
  obtain ⟨j, hj⟩ := Nat.exists_eq_add_of_lt hplaces
  rw [Nat.zero_add] at hj
  have hcut := h.dist_mul_pow_le
  have hgrid := value_mul_pow p
  have hpos : (0 : ℚ) < 10 ^ (j + 1) := by positivity
  rw [hj] at hcut hgrid
  have hunits : (p.value - n) * 10 ^ (j + 1) = (p.mantissa - n * 10 ^ (j + 1) : ℤ) := by
    rw [sub_mul, hgrid]
    push_cast
    rfl
  have hhalf : (10 : ℚ) ^ (j + 1) * (1 / 2) = 5 * 10 ^ j := by ring
  have hbelow : |p.mantissa - n * 10 ^ (j + 1)| < 5 * 10 ^ j := by
    have hlt := mul_lt_mul_of_pos_left hn hpos
    rw [hhalf, mul_comm, ← abs_mul_pow, hunits] at hlt
    exact_mod_cast hlt
  have hunit : |p.value - n| * 10 ^ (j + 1) ≤ 5 * 10 ^ j - 1 := by
    rw [← abs_mul_pow, hunits]
    exact_mod_cast Int.le_sub_one_of_lt hbelow
  have htriangle := mul_le_mul_of_nonneg_right (abs_sub_le x p.value n) hpos.le
  rw [add_mul] at htriangle
  refine lt_of_mul_lt_mul_left (a := (10 : ℚ) ^ (j + 1)) ?_ hpos.le
  rw [hhalf, mul_comm]
  linarith

end Decimal.IsCut

namespace Ticks

variable {m : Measure} {mode : OverflowMode} {a : Ticks m} {d : Decimal} {y : ℚ}

/-! ## Two roundings -/

/-- The number `y` is halfway between an even and an odd integer, not both beyond the tick counts,
and `x` is closer to the odd one. -/
def Misleads (x y : ℚ) : Prop :=
  ∃ n k : ℤ, Even n ∧ |k - n| = 1 ∧ y = (n + k) / 2 ∧ |x - k| < |x - n| ∧
    (IsSigned64 n ∨ IsSigned64 k)

theorem not_misleads_self (x : ℚ) : ¬ Misleads x x := by
  rintro ⟨n, k, -, -, hhalf, hcloser, -⟩
  rw [show x - k = -(x - n) by linarith, abs_neg] at hcloser
  exact lt_irrefl _ hcloser

/-- A number near the half between two integers is closer than half a unit to one of them. -/
theorem dist_lt_half_or (hnext : |k - n| = 1) (hhalf : y = (n + k) / 2) (hdist : |x - y| ≤ 1 / 2)
    (hne : x ≠ y) : |x - n| < 1 / 2 ∨ |x - k| < 1 / 2 := by
  obtain ⟨hlow, hhigh⟩ := abs_le.1 hdist
  obtain hk | hk : k = n + 1 ∨ k = n - 1 := by
    obtain hside | hside := (abs_eq zero_le_one).1 hnext <;> omega
  · rw [hk] at hhalf ⊢
    push_cast at hhalf ⊢
    obtain hlt | hgt := hne.lt_or_gt
    · exact .inl (abs_lt.2 ⟨by linarith, by linarith⟩)
    · exact .inr (abs_lt.2 ⟨by linarith, by linarith⟩)
  · rw [hk] at hhalf ⊢
    push_cast at hhalf ⊢
    obtain hlt | hgt := hne.lt_or_gt
    · exact .inr (abs_lt.2 ⟨by linarith, by linarith⟩)
    · exact .inl (abs_lt.2 ⟨by linarith, by linarith⟩)

/-- From a half that misleads, the even integer is reached and the odd one is nearest. -/
theorem Misleads.ne (h : Misleads x y) (hdist : |x - y| ≤ 1 / 2) (hx : IsNearestEven x n)
    (hy : IsNearestEven y k) : n ≠ k ∧ (IsSigned64 n ∨ IsSigned64 k) := by
  have hne : x ≠ y := by
    rintro rfl
    exact not_misleads_self x h
  obtain ⟨reached, missed, heven, hnext, hhalf, hcloser, hsigned⟩ := h
  have happart : missed ≠ reached := by
    rintro rfl
    simp at hnext
  have hreached : IsNearestEven y reached := by
    have habs : |y - reached| = 1 / 2 := by
      have hcast : |(missed : ℚ) - reached| = 1 := by exact_mod_cast hnext
      rw [hhalf, show ((reached : ℚ) + missed) / 2 - reached = (missed - reached) / 2 by ring,
        abs_div, hcast]
      norm_num
    exact isNearestEven_iff.2 ⟨habs.le, fun _ => heven⟩
  have hmissed : |x - missed| < 1 / 2 := by
    obtain hnear | hnear := dist_lt_half_or hnext hhalf hdist hne
    · exact hcloser.trans hnear
    · exact hnear
  rw [hx.unique (.of_dist_lt hmissed), hy.unique hreached]
  exact ⟨happart, hsigned.symm⟩

/-- The rounding of a cut number goes elsewhere than that of the number itself exactly from a half
that misleads, the tick counts being in reach. -/
theorem misleads_iff {p : Decimal} (h : Decimal.IsCut x p) (hx : IsNearestEven x n)
    (hp : IsNearestEven p.value k) :
    Misleads x p.value ↔ n ≠ k ∧ (IsSigned64 n ∨ IsSigned64 k) := by
  constructor
  · intro hmisleads
    exact hmisleads.ne h.dist_le_half hx hp
  · rintro ⟨happart, hsigned⟩
    have hne : p.value ≠ x := by
      intro heq
      rw [heq] at hp
      exact happart (hx.unique hp)
    have hsize : |x| ≤ 2 ^ 64 := by
      by_contra! hlarge
      have hcut := abs_sub_abs_le_abs_sub x p.value
      have hdist := h.dist_le_half
      obtain hsigned | hsigned := hsigned
      · exact not_isSigned64_of_le_abs hx (by linarith) hsigned
      · exact not_isSigned64_of_le_abs hp (by linarith) hsigned
    have hplaces := h.nine_le_scale hne hsize
    obtain hlt | heq := hp.dist_le_half.lt_or_eq
    · exact absurd (hx.unique (.of_dist_lt (h.dist_lt_half (by omega) hlt))) happart
    · obtain ⟨other, hnext, hhalf⟩ : ∃ other : ℤ, |other - k| = 1 ∧ p.value = (k + other) / 2 := by
        obtain hside | hside := (abs_eq (by norm_num)).1 heq
        · refine ⟨k + 1, by simp, ?_⟩
          push_cast
          linarith
        · refine ⟨k - 1, by simp, ?_⟩
          push_cast
          linarith
      have hother : |x - other| < 1 / 2 := by
        refine (dist_lt_half_or hnext hhalf h.dist_le_half hne.symm).resolve_left ?_
        intro hnear
        exact happart (hx.unique (.of_dist_lt hnear))
      have hcloser := one_le_dist_add_dist (x := x) (hx.unique (.of_dist_lt hother) ▸ happart)
      obtain rfl := hx.unique (.of_dist_lt hother)
      exact ⟨k, n, hp.even_of_half heq, hnext, hhalf, by linarith, hsigned.symm⟩

/-! ## The product -/

/-- The exact product of a tick count with a decimal factor. -/
def product (a : Ticks m) (d : Decimal) : ℚ := a.count.toInt * d.value

/-- The decimal that the product is cut to, or the product itself where it is too large for one. -/
def cutProduct (a : Ticks m) (d : Decimal) : ℚ :=
  (((Decimal.whole a.count).mul? d).map Decimal.value).getD (a.product d)

theorem cutProduct_cases (a : Ticks m) (d : Decimal) :
    (∃ p, (Decimal.whole a.count).mul? d = some p ∧ Decimal.IsCut (a.product d) p ∧
        a.cutProduct d = p.value) ∨
      ((Decimal.whole a.count).mul? d = none ∧ Decimal.limit ≤ |a.product d| ∧
        a.cutProduct d = a.product d) := by
  have hscale : (Decimal.whole a.count).scale + d.scale ≤ 28 := by
    rw [show (Decimal.whole a.count).scale = 0 from rfl, Nat.zero_add]
    exact d.scale_le
  unfold cutProduct product
  rw [← Decimal.value_whole]
  cases hmul : (Decimal.whole a.count).mul? d with
  | some p => exact .inl ⟨p, rfl, Decimal.mul?_isCut hscale hmul, rfl⟩
  | none => exact .inr ⟨rfl, (Decimal.mul?_eq_none_iff hscale).1 hmul, rfl⟩

theorem sign_product (hne : a.product d ≠ 0) :
    (decide (a.count < 0) != decide (d.mantissa < 0)) = decide (a.product d < 0) := by
  have hcount : a.count.toInt ≠ 0 := by
    intro hzero
    simp [product, hzero] at hne
  have hvalue : d.value ≠ 0 := right_ne_zero_of_mul hne
  have hcountSign : decide (a.count < 0) = decide (a.count.toInt < 0) :=
    decide_eq_decide.2 Int64.lt_iff_toInt_lt
  have hvalueSign : decide (d.mantissa < 0) = decide (d.value < 0) :=
    decide_eq_decide.2 d.value_lt_zero_iff.symm
  rw [hcountSign, hvalueSign, product]
  obtain ha | ha := hcount.lt_or_gt <;> obtain hd | hd := hvalue.lt_or_gt <;>
    simp [mul_neg_iff, ha, hd, ha.not_gt, hd.not_gt]

/-- Scaling is the outcome for every number that has the sign of the product, and whose nearest
integer is that of the cut product or beyond the tick counts like that one. -/
theorem scale_roundsTo (mode : OverflowMode) (hy : IsNearestEven y n)
    (hsign : y ≠ 0 → a.product d ≠ 0 ∧ (y < 0 ↔ a.product d < 0))
    (hcut : IsNearestEven (a.cutProduct d) k) (hsame : IsSigned64 n ∨ IsSigned64 k → n = k) :
    RoundsTo mode y n (scale mode a d) := by
  refine ofExact_roundsTo hy ?_ ?_ ?_
  · intro hne
    obtain ⟨hproduct, hiff⟩ := hsign hne
    rw [sign_product hproduct, decide_eq_decide, hiff]
  · intro hfits
    obtain ⟨p, hmul, -, hvalue⟩ | ⟨hmul, hlarge, hvalue⟩ := cutProduct_cases a d
    · rw [hvalue] at hcut
      rw [hmul, Option.map_some, hsame (.inl hfits), p.round_isNearestEven.unique hcut]
    · rw [hvalue] at hcut
      rw [hsame (.inl hfits)] at hfits
      exact absurd hfits (not_isSigned64_of_limit_le hcut hlarge)
  · intro j hj hfits
    obtain ⟨p, hmul, rfl⟩ := Option.map_eq_some_iff.1 hj
    have hvalue : a.cutProduct d = p.value := by rw [cutProduct, hmul]; rfl
    rw [hvalue] at hcut
    rw [p.round_isNearestEven.unique hcut] at hfits ⊢
    exact (hsame (.inr hfits)).symm

theorem scale_roundsTo_product (mode : OverflowMode) (hproduct : IsNearestEven (a.product d) n)
    (hcut : IsNearestEven (a.cutProduct d) k) (hsame : IsSigned64 n ∨ IsSigned64 k → n = k) :
    RoundsTo mode (a.product d) n (scale mode a d) :=
  scale_roundsTo mode hproduct (fun hne => ⟨hne, Iff.rfl⟩) hcut hsame

/-- Scaling rounds the cut product. -/
theorem scale_roundsTo_cutProduct (mode : OverflowMode) (hcut : IsNearestEven (a.cutProduct d) k) :
    RoundsTo mode (a.cutProduct d) k (scale mode a d) := by
  refine scale_roundsTo mode hcut ?_ hcut fun _ => rfl
  obtain ⟨p, -, h, hvalue⟩ | ⟨-, -, hvalue⟩ := cutProduct_cases a d
  · rw [hvalue]
    exact h.sign_value
  · rw [hvalue]
    exact fun hne => ⟨hne, Iff.rfl⟩

theorem misleads_cutProduct_iff (hproduct : IsNearestEven (a.product d) n)
    (hcut : IsNearestEven (a.cutProduct d) k) :
    Misleads (a.product d) (a.cutProduct d) ↔ n ≠ k ∧ (IsSigned64 n ∨ IsSigned64 k) := by
  obtain ⟨p, -, h, hvalue⟩ | ⟨-, -, hvalue⟩ := cutProduct_cases a d
  · rw [hvalue] at hcut ⊢
    exact misleads_iff h hproduct hcut
  · rw [hvalue] at hcut ⊢
    exact iff_of_false (not_misleads_self _) fun hne => hne.1 (hproduct.unique hcut)

/-- A product that a mantissa holds is not changed. -/
theorem le_abs_of_misleads (h : Misleads (a.product d) (a.cutProduct d)) :
    2 ^ 96 ≤ |a.count.toInt * d.mantissa| := by
  by_contra! hsmall
  have hscaled : a.product d * 10 ^ d.scale = (a.count.toInt * d.mantissa : ℤ) := by
    rw [product, mul_assoc, Decimal.value_mul_pow]
    push_cast
    rfl
  have hfits : |a.product d| * 10 ^ d.scale < Decimal.limit := by
    rw [← Decimal.abs_mul_pow, hscaled]
    exact Decimal.abs_lt_limit hsmall
  obtain ⟨p, -, hcut, hvalue⟩ | ⟨-, -, hvalue⟩ := cutProduct_cases a d
  · refine not_misleads_self (a.product d) ?_
    rwa [hvalue, hcut.value_eq_of_fits hscaled hfits] at h
  · rw [hvalue] at h
    exact not_misleads_self _ h

theorem dist_cutProduct_le (hsize : |a.product d| ≤ 2 ^ 64) :
    |a.product d - a.cutProduct d| ≤ 5 / 10 ^ 10 := by
  obtain ⟨p, -, h, hvalue⟩ | ⟨-, -, hvalue⟩ := cutProduct_cases a d
  · rw [hvalue]
    exact h.dist_le hsize
  · rw [hvalue, sub_self, abs_zero]
    positivity

theorem dist_cutProduct_le_half (a : Ticks m) (d : Decimal) :
    |a.product d - a.cutProduct d| ≤ 1 / 2 := by
  obtain ⟨p, -, h, hvalue⟩ | ⟨-, -, hvalue⟩ := cutProduct_cases a d
  · rw [hvalue]
    exact h.dist_le_half
  · rw [hvalue, sub_self, abs_zero]
    positivity

/-- A fault, or its absence, tells to which integer a trapping conversion rounds. -/
theorem RoundsTo.nearest_eq {outcome : Except Fault (Ticks m)}
    (hx : RoundsTo .trapping x n outcome) (hy : RoundsTo .trapping y k outcome)
    (hsigned : IsSigned64 n ∨ IsSigned64 k) : n = k := by
  by_cases hn : IsSigned64 n <;> by_cases hk : IsSigned64 k
  · obtain ⟨r, hr, rfl⟩ := hx.counted hn
    obtain ⟨s, hs, rfl⟩ := hy.counted hk
    cases hr.symm.trans hs
    rfl
  · obtain ⟨r, hr, -⟩ := hx.counted hn
    cases hr.symm.trans (hy.trapped hk rfl)
  · obtain ⟨s, hs, -⟩ := hy.counted hk
    cases hs.symm.trans (hx.trapped hn rfl)
  · exact absurd hsigned (not_or.2 ⟨hn, hk⟩)

/-- A trapping product with a decimal is the exact product rounded once, to the nearest count with
halves to even, exactly if the cut product does not mislead; a silent one is so too then. Only
products of mantissas from `2 ^ 96` on are misleading, and every product is a number rounded once
that is no further than `5 * 10 ^ -10` from the exact one. -/
theorem scale_roundsTo_iff (a : Ticks m) (d : Decimal) :
    ((∃ n, RoundsTo .trapping (a.product d) n (scale .trapping a d)) ↔
        ¬ Misleads (a.product d) (a.cutProduct d)) ∧
      (¬ Misleads (a.product d) (a.cutProduct d) →
        ∃ n, RoundsTo .silent (a.product d) n (scale .silent a d)) ∧
      (Misleads (a.product d) (a.cutProduct d) → 2 ^ 96 ≤ |a.count.toInt * d.mantissa|) ∧
      ∀ mode, ∃ y n, |a.product d - y| ≤ 5 / 10 ^ 10 ∧ RoundsTo mode y n (scale mode a d) := by
  obtain ⟨n, hproduct⟩ := exists_isNearestEven (a.product d)
  obtain ⟨k, hcut⟩ := exists_isNearestEven (a.cutProduct d)
  have hmisleads := misleads_cutProduct_iff hproduct hcut
  have hrounds : ¬ Misleads (a.product d) (a.cutProduct d) → ∀ mode,
      RoundsTo mode (a.product d) n (scale mode a d) := by
    intro hfaithful mode
    refine scale_roundsTo_product mode hproduct hcut fun hsigned => ?_
    by_contra hne
    exact hfaithful (hmisleads.2 ⟨hne, hsigned⟩)
  refine ⟨⟨?_, fun h => ⟨n, hrounds h .trapping⟩⟩, fun h => ⟨n, hrounds h .silent⟩,
    le_abs_of_misleads, ?_⟩
  · rintro ⟨n', hn'⟩ h
    obtain rfl := hproduct.unique hn'.nearest
    obtain ⟨hne, hsigned⟩ := hmisleads.1 h
    exact hne (hn'.nearest_eq (scale_roundsTo_cutProduct .trapping hcut) hsigned)
  · intro mode
    obtain hsize | hlarge := le_or_gt |a.product d| (2 ^ 64)
    · exact ⟨_, k, dist_cutProduct_le hsize, scale_roundsTo_cutProduct mode hcut⟩
    · -- beyond the counts, the product itself and the cut one have the same outcome
      have hcutLarge : 2 ^ 63 + 1 ≤ |a.cutProduct d| := by
        have hdist := abs_sub_abs_le_abs_sub (a.product d) (a.cutProduct d)
        linarith [dist_cutProduct_le_half a d]
      refine ⟨_, n, ?_, scale_roundsTo_product mode hproduct hcut ?_⟩
      · rw [sub_self, abs_zero]
        positivity
      · rintro (hsigned | hsigned)
        · exact absurd hsigned (not_isSigned64_of_le_abs hproduct (by linarith))
        · exact absurd hsigned (not_isSigned64_of_le_abs hcut hcutLarge)

/-- A mantissa holds the product of 300 ticks with an eighth, a half that is rounded to 38. -/
theorem scale_roundsTo_iff_eighth :
    let a : Price := ⟨300⟩
    let eighth : Decimal := { mantissa := 125, scale := 3 }
    ¬ Misleads (a.product eighth) (a.cutProduct eighth) ∧
      (∃ n, RoundsTo .trapping (a.product eighth) n (scale .trapping a eighth)) ∧
      (∃ n, RoundsTo .silent (a.product eighth) n (scale .silent a eighth)) ∧
      scale .trapping a eighth = .ok ⟨38⟩ := by
  intro a eighth
  obtain ⟨htrapping, hsilent, hlarge, -⟩ := scale_roundsTo_iff a eighth
  have hfaithful : ¬ Misleads (a.product eighth) (a.cutProduct eighth) := by
    intro h
    exact absurd (hlarge h) (by decide)
  exact ⟨hfaithful, htrapping.2 hfaithful, hsilent hfaithful, by decide⟩

/-- Not every product is rounded once. Three ticks times 4.1666666666666666666666666667 are just
above 12.5, which is what the product is cut to, and the result is 12. -/
theorem not_scale_roundsTo_always :
    ¬ ∀ (mode : OverflowMode) (a : Price) (d : Decimal),
      ∃ n, RoundsTo mode (a.product d) n (scale mode a d) := by
  intro h
  let factor : Decimal := { mantissa := 41666666666666666666666666667, scale := 28 }
  obtain ⟨n, hn⟩ := h .silent ⟨3⟩ factor
  have hproduct : product (⟨3⟩ : Price) factor = 125000000000000000000000000001 / 10 ^ 28 := by
    rw [product, show (⟨3⟩ : Price).count.toInt = 3 from rfl]
    norm_num [Decimal.value, factor]
  have hnearest : IsNearestEven (product (⟨3⟩ : Price) factor) 13 := by
    refine .of_dist_lt ?_
    rw [hproduct]
    norm_num [abs_of_neg]
  obtain rfl := hn.nearest.unique hnearest
  obtain ⟨r, hr, hcount⟩ := hn.counted (by decide)
  have hresult : scale .silent (⟨3⟩ : Price) factor = .ok ⟨12⟩ := by decide
  cases hresult.symm.trans hr
  exact absurd hcount (by decide)

end Ticks

end DepthFeed

import DepthFeed.Proofs.Decimal.Cut

/-!
# Quotients of decimals

A quotient is rounded once, to the nearest decimal with 28 places. So it keeps the order of the exact
quotients, and a whole quotient is exact.

* `Decimal.IsQuotient`: the decimal that a quotient is rounded to.
* `Decimal.div?_isQuotient`, `Decimal.exists_div?`: what division gives, and when it gives something.
* `Decimal.IsQuotient.value_le_value`, `Decimal.IsQuotient.dist_le`: order and distance.
-/

namespace DepthFeed.Decimal

/-- `q` is `x` rounded to 28 places. -/
structure IsQuotient (x : ℚ) (q : Decimal) : Prop where
  scale_eq : q.scale = 28
  nearest : IsNearestEven (x * 10 ^ 28) q.mantissa

variable {x y : ℚ} {a b p q : Decimal} {mantissa : Int} {scale : Nat}

theorem exists_ofParts? (hscale : scale ≤ 28) (hsize : |mantissa| < 2 ^ 96) :
    ∃ d, ofParts? mantissa scale = some d ∧ d.mantissa = mantissa ∧ d.scale = scale := by
  have hsome : ofParts? mantissa scale ≠ none := by
    rw [ne_eq, ofParts?_eq_none_iff hscale, not_not]
    exact hsize
  obtain ⟨d, hd⟩ := Option.ne_none_iff_exists'.1 hsome
  exact ⟨d, hd, ofParts?_eq_some_iff.1 hd⟩

/-- The quotient in units of its last place. The sign of the divisor moves to the dividend. -/
theorem div_eq_value_div_value (a : Decimal) (hb : b.mantissa ≠ 0) :
    ((b.mantissa.sign * a.mantissa * Nat.pow 10 (b.scale + 28) : ℤ) : ℚ) /
        ((b.mantissa.natAbs * Nat.pow 10 a.scale : ℕ) : ℚ) = a.value / b.value * 10 ^ 28 := by
  have hmantissa : (b.mantissa : ℚ) ≠ 0 := by exact_mod_cast hb
  have hsign : (b.mantissa.sign : ℚ) ≠ 0 := by
    exact_mod_cast mt Int.sign_eq_zero_iff_zero.1 hb
  have hsize : (b.mantissa.natAbs : ℚ) = b.mantissa.sign * b.mantissa := by
    rw [← Int.cast_mul, Int.sign_mul_self_eq_natAbs, Int.cast_natCast]
  rw [value, value]
  simp only [Nat.pow_eq]
  push_cast
  rw [hsize, pow_add]
  field_simp

theorem roundHalfEven_isNearestEven_div (a : Decimal) (hb : b.mantissa ≠ 0) :
    IsNearestEven (a.value / b.value * 10 ^ 28)
      (roundHalfEven (b.mantissa.sign * a.mantissa * Nat.pow 10 (b.scale + 28))
        (b.mantissa.natAbs * Nat.pow 10 a.scale)) := by
  rw [← div_eq_value_div_value a hb]
  refine roundHalfEven_isNearestEven _ (Nat.mul_pos ?_ (Nat.pow_pos (by decide)))
  exact Int.natAbs_pos.2 hb

/-- A quotient is a decimal if it is not too large for 28 places. -/
theorem exists_div? (hb : b.mantissa ≠ 0) (hsize : |a.value / b.value| * 10 ^ 28 < limit) :
    ∃ q, a.div? b = some q ∧ IsQuotient (a.value / b.value) q := by
  have hnearest := roundHalfEven_isNearestEven_div a hb
  obtain ⟨q, hq, hmantissa, hscale⟩ :=
    exists_ofParts? (Nat.le_refl 28) ((abs_lt_iff hnearest).2 hsize)
  refine ⟨q, ?_, hscale, hmantissa ▸ hnearest⟩
  rw [div?, if_neg hb, hq]

namespace IsQuotient

theorem value_eq (h : IsQuotient x q) : q.value = q.mantissa / 10 ^ 28 := by
  rw [value, h.scale_eq]

/-- Rounding keeps the order of quotients. -/
theorem value_le_value (hx : IsQuotient x p) (hy : IsQuotient y q) (h : x ≤ y) :
    p.value ≤ q.value := by
  have hmantissa := hx.nearest.le_of_le hy.nearest (mul_le_mul_of_nonneg_right h (by positivity))
  rw [hx.value_eq, hy.value_eq]
  gcongr

/-- A rounded quotient is off by half a unit of the last place at most. -/
theorem dist_le (h : IsQuotient x q) : |q.value - x| ≤ 5 / 10 ^ 29 := by
  have hdist := h.nearest.dist_le_half
  have hscaled : x * 10 ^ 28 - q.mantissa = (x - q.value) * 10 ^ 28 := by
    rw [h.value_eq]
    field_simp
  rw [hscaled, abs_mul_pow] at hdist
  rw [abs_sub_comm]
  linarith

theorem le_intCast (h : IsQuotient x q) {k : ℤ} (hle : x ≤ k) : q.value ≤ k := by
  have hwhole := IsNearestEven.intCast (k * 10 ^ 28)
  have hmantissa : q.mantissa ≤ k * 10 ^ 28 := by
    refine h.nearest.le_of_le hwhole ?_
    push_cast
    exact mul_le_mul_of_nonneg_right hle (by positivity)
  rw [h.value_eq, div_le_iff₀ (by positivity)]
  exact_mod_cast hmantissa

theorem neg (h : IsQuotient x q) : IsQuotient (-x) q.neg where
  scale_eq := h.scale_eq
  nearest := by
    rw [neg_mul]
    exact h.nearest.neg

theorem intCast_le (h : IsQuotient x q) {k : ℤ} (hle : (k : ℚ) ≤ x) : (k : ℚ) ≤ q.value := by
  have hneg := h.neg.le_intCast (k := -k) (by push_cast; exact neg_le_neg hle)
  rw [value_neg] at hneg
  push_cast at hneg
  exact neg_le_neg_iff.1 hneg

/-- A whole quotient is exact. -/
theorem value_eq_of_eq_intCast (h : IsQuotient x q) {k : ℤ} (hx : x = k) : q.value = k :=
  le_antisymm (h.le_intCast hx.le) (h.intCast_le hx.ge)

end IsQuotient

end DepthFeed.Decimal

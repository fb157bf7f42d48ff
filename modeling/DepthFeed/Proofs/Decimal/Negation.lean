import DepthFeed.Decimal.Basic

/-!
# Negated decimals

Rounding halves to even treats both signs alike, so the quotient of a negated decimal is the negated
quotient.

* `roundHalfEven_neg`: the rounding of a negated quotient.
* `Decimal.neg`, `Decimal.ofParts?_neg`: a negated decimal has a mantissa in range.
* `Decimal.div?_neg`: the quotient of a negated decimal.
-/

namespace DepthFeed

theorem roundHalfEven_neg (num : Int) {den : Nat} (hden : 0 < den) :
    roundHalfEven (-num) den = -roundHalfEven num den := by
  have hlow := Int.emod_nonneg num (b := den) (by omega)
  have hhigh := Int.emod_lt_of_pos num (b := den) (by omega)
  have hsplit := Int.mul_ediv_add_emod num den
  by_cases hwhole : num % den = 0
  · obtain ⟨q, rfl⟩ : (den : Int) ∣ num := Int.dvd_of_emod_eq_zero hwhole
    rw [← Int.mul_neg, roundHalfEven_mul _ hden, roundHalfEven_mul _ hden]
  · -- the two quotients are on the same side of their halves, and if they are halves, one is even
    -- and the other one is not
    have hquotient : -num / den = -(num / den) - 1 ∧ -num % den = den - num % den := by
      refine (Int.ediv_emod_unique (by omega)).2 ⟨?_, by omega, by omega⟩
      rw [Int.mul_sub, Int.mul_neg]
      omega
    obtain ⟨hbelow, hexcess⟩ := hquotient
    unfold roundHalfEven
    dsimp only
    rw [hbelow, hexcess]
    split <;> split <;> omega

namespace Decimal

def neg (d : Decimal) : Decimal where
  mantissa := -d.mantissa
  scale := d.scale
  mantissa_lt := Int.natAbs_neg d.mantissa ▸ d.mantissa_lt
  scale_le := d.scale_le

theorem ofParts?_neg (mantissa : Int) (scale : Nat) :
    ofParts? (-mantissa) scale = (ofParts? mantissa scale).map neg := by
  unfold ofParts?
  by_cases hfits : mantissa.natAbs < 0x1_0000_0000_0000_0000_0000_0000 ∧ scale ≤ 28
  · rw [dif_pos hfits, dif_pos (by rwa [Int.natAbs_neg])]
    rfl
  · rw [dif_neg hfits, dif_neg (by rwa [Int.natAbs_neg])]
    rfl

/-- The quotient of a negated decimal. -/
theorem div?_neg (a b : Decimal) : a.neg.div? b = (a.div? b).map neg := by
  unfold div?
  split
  · rfl
  · rename_i hb
    have hden : 0 < b.mantissa.natAbs * Nat.pow 10 a.scale :=
      Nat.mul_pos (Int.natAbs_pos.2 hb) (Nat.pow_pos (by decide))
    have hnum : b.mantissa.sign * a.neg.mantissa * Nat.pow 10 (b.scale + 28) =
        -(b.mantissa.sign * a.mantissa * Nat.pow 10 (b.scale + 28)) := by
      rw [neg, Int.mul_neg, Int.neg_mul]
    rw [hnum, neg, roundHalfEven_neg _ hden, ofParts?_neg]

end Decimal

end DepthFeed

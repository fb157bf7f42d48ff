/-!
# Rounding a quotient to the nearest integer

`roundHalfEven num den` is the integer nearest to `num / den`, where a quotient halfway between
two integers goes to the even one.

* `two_mul_sub_roundHalfEven_le`: the result is at most half a unit away.
* `roundHalfEven_mul`: a whole quotient is its own rounding.
-/

namespace DepthFeed

/-- The integer nearest to `num / den` for a positive `den`; halves go to the even neighbour. -/
def roundHalfEven (num : Int) (den : Nat) : Int :=
  let below := num / den
  let excess := 2 * (num % den)
  if excess < den ∨ (excess = den ∧ below % 2 = 0) then below else below + 1

/-- The rounding of `num / den` is at most half a unit away from it. -/
theorem two_mul_sub_roundHalfEven_le (num : Int) {den : Nat} (hden : 0 < den) :
    2 * (num - den * roundHalfEven num den).natAbs ≤ den := by
  have hlow := Int.emod_nonneg num (b := den) (by omega)
  have hhigh := Int.emod_lt_of_pos num (b := den) (by omega)
  have hsplit := Int.mul_ediv_add_emod num den
  simp only [roundHalfEven]
  split
  · omega
  · rw [Int.mul_add]
    omega

/-- A whole quotient is its own rounding. -/
theorem roundHalfEven_mul (q : Int) {den : Nat} (hden : 0 < den) :
    roundHalfEven (den * q) den = q := by
  have hne : (den : Int) ≠ 0 := by omega
  simp [roundHalfEven, Int.mul_ediv_cancel_left _ hne]
  omega

end DepthFeed

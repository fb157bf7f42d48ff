import Mathlib.Algebra.Order.Field.Rat
import Mathlib.Data.Rat.Cast.Order
import Mathlib.Tactic.FieldSimp
import Mathlib.Tactic.Linarith
import Mathlib.Tactic.Positivity
import Mathlib.Tactic.Ring
import DepthFeed.Rounding

/-!
# The integer nearest to a rational number

`IsNearestEven x n` says that `n` is nearest to `x` among all integers, and even where another one
is just as near. There is one such integer for each number, it moves up with the number, and
`roundHalfEven` computes it.

* `isNearestEven_iff`: being at most half a unit away is enough.
* `IsNearestEven.le_of_le`, `IsNearestEven.unique`: order and uniqueness.
* `IsNearestEven.abs_lt_iff`: which numbers stay below an even bound.
* `roundHalfEven_isNearestEven`: the rounding of a quotient.
-/

namespace DepthFeed

/-- `n` is an integer nearest to `x`, the even one where there are two. -/
structure IsNearestEven (x : ℚ) (n : ℤ) : Prop where
  dist_le : ∀ k : ℤ, |x - n| ≤ |x - k|
  even_of_tie : ∀ k : ℤ, k ≠ n → |x - k| = |x - n| → Even n

variable {x y : ℚ} {n k : ℤ}

/-- Two different integers are not both closer than half a unit. -/
theorem one_le_dist_add_dist (hne : k ≠ n) : 1 ≤ |x - k| + |x - n| := by
  have hapart : (1 : ℚ) ≤ |(k : ℚ) - n| := by
    exact_mod_cast Int.one_le_abs (sub_ne_zero.2 hne)
  have htriangle := abs_sub_le (k : ℚ) x n
  rw [abs_sub_comm (k : ℚ) x] at htriangle
  exact hapart.trans htriangle

theorem isNearestEven_iff :
    IsNearestEven x n ↔ |x - n| ≤ 1 / 2 ∧ (|x - n| = 1 / 2 → Even n) := by
  constructor
  · intro h
    -- the neighbour on the side of `x`
    obtain ⟨k, hne, hk⟩ : ∃ k : ℤ, k ≠ n ∧ |x - k| = |1 - (|x - n|)| := by
      rcases le_total 0 (x - n) with hside | hside
      · refine ⟨n + 1, by omega, ?_⟩
        rw [abs_of_nonneg hside, abs_sub_comm 1]
        push_cast
        ring_nf
      · refine ⟨n - 1, by omega, ?_⟩
        rw [abs_of_nonpos hside]
        push_cast
        ring_nf
    have hdist := h.dist_le k
    have hnonneg := abs_nonneg (x - n)
    rw [hk] at hdist
    have hhalf : |x - n| ≤ 1 / 2 := by
      rcases le_abs.1 hdist with hle | hle <;> linarith
    refine ⟨hhalf, fun htie => h.even_of_tie k hne ?_⟩
    rw [hk, htie]
    norm_num
  · rintro ⟨hnear, heven⟩
    constructor
    · intro k
      by_cases hne : k = n
      · rw [hne]
      · linarith [one_le_dist_add_dist (x := x) hne]
    · intro k hne htie
      refine heven ?_
      linarith [one_le_dist_add_dist (x := x) hne]

namespace IsNearestEven

theorem dist_le_half (h : IsNearestEven x n) : |x - n| ≤ 1 / 2 := (isNearestEven_iff.1 h).1

theorem even_of_half (h : IsNearestEven x n) (htie : |x - n| = 1 / 2) : Even n :=
  (isNearestEven_iff.1 h).2 htie

/-- An integer that is closer than half a unit is the nearest one. -/
theorem of_dist_lt (h : |x - n| < 1 / 2) : IsNearestEven x n :=
  isNearestEven_iff.2 ⟨h.le, fun htie => absurd htie h.ne⟩

theorem intCast (n : ℤ) : IsNearestEven n n := of_dist_lt (by norm_num)

/-- The nearest integer moves up with the number. -/
theorem le_of_le (hx : IsNearestEven x n) (hy : IsNearestEven y k) (h : x ≤ y) : n ≤ k := by
  have hlow := abs_le.1 hx.dist_le_half
  have hhigh := abs_le.1 hy.dist_le_half
  by_contra! hlt
  have hle : (k : ℚ) + 1 ≤ n := by exact_mod_cast hlt
  -- otherwise both numbers are the half between two integers, which would both be even
  have hnext : n = k + 1 := by
    have : (n : ℚ) = k + 1 := by linarith
    exact_mod_cast this
  have heven : Even n := hx.even_of_half (by rw [abs_of_nonpos] <;> linarith)
  have heven' : Even k := hy.even_of_half (by rw [abs_of_nonneg] <;> linarith)
  rw [hnext, Int.even_add_one] at heven
  exact heven heven'

theorem unique (hn : IsNearestEven x n) (hk : IsNearestEven x k) : n = k :=
  le_antisymm (hn.le_of_le hk le_rfl) (hk.le_of_le hn le_rfl)

theorem neg (h : IsNearestEven x n) : IsNearestEven (-x) (-n) := by
  have hdist : |-x - ((-n : ℤ) : ℚ)| = |x - n| := by
    rw [← abs_neg]
    push_cast
    ring_nf
  rw [isNearestEven_iff, hdist, even_neg]
  exact isNearestEven_iff.1 h

/-- From a half below an even bound on, numbers are rounded up to it. -/
theorem le_iff {bound : ℤ} (hbound : Even bound) (h : IsNearestEven x n) :
    bound ≤ n ↔ (bound : ℚ) - 1 / 2 ≤ x := by
  have hnear := abs_le.1 h.dist_le_half
  constructor
  · intro hle
    have : (bound : ℚ) ≤ n := by exact_mod_cast hle
    linarith
  · intro hle
    have hedge : IsNearestEven ((bound : ℚ) - 1 / 2) bound := by
      refine isNearestEven_iff.2 ⟨?_, fun _ => hbound⟩
      norm_num [abs_of_nonneg]
    exact hedge.le_of_le h hle

/-- The numbers that are rounded to less than an even bound in size. -/
theorem abs_lt_iff {bound : ℤ} (hbound : Even bound) (h : IsNearestEven x n) :
    |n| < bound ↔ |x| < bound - 1 / 2 := by
  have hhigh : n < bound ↔ x < bound - 1 / 2 := by
    simpa only [not_le] using not_congr (h.le_iff hbound)
  have hlow : -n < bound ↔ -x < bound - 1 / 2 := by
    simpa only [not_le] using not_congr (h.neg.le_iff hbound)
  rw [abs_lt, abs_lt, neg_lt, hlow, hhigh, neg_lt]

end IsNearestEven

/-! ## The rounding of a quotient -/

/-- A half is rounded to the even neighbour. -/
theorem roundHalfEven_even {num : Int} {den : Nat}
    (htie : 2 * (num - den * roundHalfEven num den).natAbs = den) : Even (roundHalfEven num den) := by
  have hlow := Int.emod_nonneg num (b := den)
  have hhigh := Int.emod_lt_of_pos num (b := den)
  have hsplit := Int.mul_ediv_add_emod num den
  rw [Int.even_iff]
  revert htie
  simp only [roundHalfEven]
  split
  · omega
  · rw [Int.mul_add]
    omega

theorem roundHalfEven_isNearestEven (num : Int) {den : Nat} (hden : 0 < den) :
    IsNearestEven (num / den) (roundHalfEven num den) := by
  have hpos : (0 : ℚ) < den := by exact_mod_cast hden
  set n := roundHalfEven num den with hn
  have hdist : |(num : ℚ) / den - n| = (num - den * n).natAbs / den := by
    rw [Nat.cast_natAbs, Int.cast_abs, ← abs_of_pos hpos, ← abs_div, abs_of_pos hpos]
    congr 1
    push_cast
    field_simp
  rw [isNearestEven_iff, hdist, div_le_iff₀ hpos, div_eq_iff hpos.ne']
  constructor
  · have hnear := two_mul_sub_roundHalfEven_le num hden
    rw [← hn] at hnear
    have : (2 : ℚ) * (num - den * n).natAbs ≤ den := by exact_mod_cast hnear
    linarith
  · intro htie
    refine roundHalfEven_even ?_
    have : (2 : ℚ) * (num - den * n).natAbs = den := by linarith
    exact_mod_cast this

/-- Every number has a nearest integer. -/
theorem exists_isNearestEven (x : ℚ) : ∃ n, IsNearestEven x n := by
  refine ⟨roundHalfEven x.num x.den, ?_⟩
  have h := roundHalfEven_isNearestEven x.num x.den_pos
  rwa [Rat.num_div_den] at h

end DepthFeed

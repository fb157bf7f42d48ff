import Mathlib.Algebra.Group.Nat.Defs
import Mathlib.Data.List.Basic
import Mathlib.Tactic.SplitIfs
import DepthFeed.Digits

/-!
# What digits write

A natural number is written without a zero in front unless it is zero, and filled up with zeros where
a width is asked for. Both are read back as the number.

* `Digits.IsWhole`, `Digits.isWhole_toDigits`: digits without superfluous zeros in front.
* `Digits.length_padded`, `Digits.toNat_padded`: a number that is filled up to a width.
* `Digits.toNat_append`: the number that two lists of digits write together.
-/

namespace DepthFeed.Digits

variable {cs : List Char} {c : Char} {n width : Nat}

/-- Digits that write a number, where a zero stands in front only if it is the only digit. -/
structure IsWhole (cs : List Char) : Prop where
  ne_nil : cs ≠ []
  digits : ∀ c ∈ cs, c.isDigit
  eq_of_leading_zero : cs.head? = some '0' → cs = ['0']

theorem digitChar_ne_zero : ∀ k < 10, 0 < k → k.digitChar ≠ '0' := by decide

theorem head?_toDigits_ne_zero (hn : 0 < n) : (Nat.toDigits 10 n).head? ≠ some '0' := by
  induction n using Nat.strongRecOn with
  | ind n ih =>
    rw [Nat.toDigits_eq_if (by decide)]
    split_ifs with hlt
    · rw [List.head?_cons, ne_eq, Option.some.injEq]
      exact digitChar_ne_zero n hlt hn
    · rw [List.head?_append_of_ne_nil _ Nat.toDigits_ne_nil]
      exact ih (n / 10) (by omega) (by omega)

theorem isDigit_of_mem_toDigits (hc : c ∈ Nat.toDigits 10 n) : c.isDigit :=
  Nat.isDigit_of_mem_toDigits (by decide) (by decide) hc

theorem isWhole_toDigits (n : Nat) : IsWhole (Nat.toDigits 10 n) where
  ne_nil := Nat.toDigits_ne_nil
  digits _ := isDigit_of_mem_toDigits
  eq_of_leading_zero hzero := by
    obtain rfl | hn := Nat.eq_zero_or_pos n
    · rfl
    · exact absurd hzero (head?_toDigits_ne_zero hn)

theorem toNat?_eq_some (hne : cs ≠ []) (hdigits : ∀ c ∈ cs, c.isDigit) :
    toNat? cs = some (toNat cs) := by
  rw [toNat?, List.isEmpty_eq_false_iff.2 hne, List.all_eq_true.2 hdigits]
  rfl

theorem toNat_toDigits (n : Nat) : toNat (Nat.toDigits 10 n) = n := Nat.ofDigitChars_ten_toDigits

/-- Digits move on by the number of digits that follow them. -/
theorem toNat_append (cs ds : List Char) :
    toNat (cs ++ ds) = 10 ^ ds.length * toNat cs + toNat ds := by
  show Nat.ofDigitChars 10 (cs ++ ds) 0 = _
  rw [Nat.ofDigitChars_append, Nat.ofDigitChars_eq_ofDigitChars_zero]
  rfl

/-! ## Numbers of a fixed width -/

theorem isDigit_of_mem_padded (hc : c ∈ padded width n) : c.isDigit := by
  obtain hzero | hdigit := List.mem_append.1 hc
  · rw [List.eq_of_mem_replicate hzero]
    rfl
  · exact isDigit_of_mem_toDigits hdigit

/-- A number that has at most `width` digits is written with that many. -/
theorem length_padded (hwidth : 0 < width) (h : n < 10 ^ width) :
    (padded width n).length = width := by
  have hdigits : (Nat.toDigits 10 n).length ≤ width :=
    (Nat.length_toDigits_le_iff (by decide) hwidth).2 h
  rw [padded, List.length_append, List.length_replicate]
  omega

theorem toNat_padded (width n : Nat) : toNat (padded width n) = n := by
  have hzeros (k : Nat) : toNat (List.replicate k '0') = 0 :=
    Nat.ofDigitChars_replicate_zero.trans (Nat.mul_zero _)
  rw [padded, toNat_append, hzeros, toNat_toDigits, Nat.mul_zero, Nat.zero_add]

end DepthFeed.Digits

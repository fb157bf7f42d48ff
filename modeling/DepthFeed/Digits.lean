/-!
# Decimal digits

Natural numbers as lists of digit characters, with leading zeros where a width is asked for.
-/

namespace DepthFeed.Digits

/-- The digits of `n`, filled up with zeros on the left to `width` digits. -/
def padded (width n : Nat) : List Char :=
  let digits := Nat.toDigits 10 n
  List.replicate (width - digits.length) '0' ++ digits

/-- The number that digits write. -/
def toNat (digits : List Char) : Nat :=
  digits.foldl (fun n c => 10 * n + (c.toNat - '0'.toNat)) 0

/-- The number that a text of digits writes, if there is at least one and nothing else. -/
def toNat? (cs : List Char) : Option Nat :=
  if !cs.isEmpty && cs.all Char.isDigit then some (toNat cs) else none

end DepthFeed.Digits

import DepthFeed.Rounding

/-!
# Decimals with a 96-bit mantissa

A `Decimal` is `mantissa * 10 ^ -scale`, where the mantissa is below `2 ^ 96` in size and there are
at most 28 places.

* `Decimal.cut?` drops the fewest digits that make an exact number such a decimal, rounding once,
  halves to even. A number whose integer part is too large has no cut.
* `Decimal.mul?` is the exact product, cut.
* `Decimal.div?` is the quotient to 28 places, halves to even.
-/

namespace DepthFeed

/-- The number `mantissa * 10 ^ -scale`. -/
structure Decimal where
  mantissa : Int
  scale : Nat
  mantissa_lt : mantissa.natAbs < 0x1_0000_0000_0000_0000_0000_0000 := by decide
  scale_le : scale ≤ 28 := by decide
deriving DecidableEq, Repr

namespace Decimal

/-- The decimal of a mantissa and a scale that are in range. -/
def ofParts? (mantissa : Int) (scale : Nat) : Option Decimal :=
  if h : mantissa.natAbs < 0x1_0000_0000_0000_0000_0000_0000 ∧ scale ≤ 28 then
    some ⟨mantissa, scale, h.1, h.2⟩
  else
    none

def zero : Decimal := { mantissa := 0, scale := 0 }

def ofInt64 (n : Int64) (scale : Nat) (h : scale ≤ 28) : Decimal where
  mantissa := n.toInt
  scale := scale
  mantissa_lt := by
    have hlow := n.le_toInt
    have hhigh := n.toInt_lt
    omega
  scale_le := h

def whole (n : Int64) : Decimal := ofInt64 n 0 (Nat.zero_le 28)

/-- The integer nearest to a decimal, halves to even. -/
def round (d : Decimal) : Int := roundHalfEven d.mantissa (Nat.pow 10 d.scale)

/-- The decimal for `exact * 10 ^ -scale` with the fewest digits dropped. -/
def cut? (exact : Int) (scale : Nat) : Option Decimal :=
  (List.range (scale + 1)).findSome? fun dropped =>
    ofParts? (roundHalfEven exact (Nat.pow 10 dropped)) (scale - dropped)

/-- The product, cut to a decimal. -/
def mul? (a b : Decimal) : Option Decimal :=
  cut? (a.mantissa * b.mantissa) (a.scale + b.scale)

/-- The quotient to 28 places, if it is a decimal and the divisor is not zero. -/
def div? (a b : Decimal) : Option Decimal :=
  if b.mantissa = 0 then
    none
  else
    ofParts?
      (roundHalfEven (b.mantissa.sign * a.mantissa * Nat.pow 10 (b.scale + 28))
        (b.mantissa.natAbs * Nat.pow 10 a.scale)) 28

end Decimal

end DepthFeed

import DepthFeed.Decimal.Text
import DepthFeed.Fault

/-!
# Prices and quantities as tick counts

A price or a quantity is a whole number of ticks, `10 ^ 8` of them to the unit. The measure is part
of the type, so a price is never added to a quantity.

* `Ticks.ofDecimal`, `Ticks.ofUnits`, `Ticks.scale`: conversions, rounded to the nearest tick with
  halves to even. A result that no tick count holds is a fault, or stops at the nearest count.
* `Ticks.add`, `Ticks.sub`, ...: arithmetic under an overflow mode.
* `Ticks.text`: the amount with eight places.
-/

namespace DepthFeed

/-- An amount of `m`, counted in ticks. -/
structure Ticks (m : Measure) where
  count : Int64
deriving DecidableEq, Repr

abbrev Price := Ticks .price

abbrev Quantity := Ticks .quantity

namespace Ticks

variable {m : Measure}

def places : Nat := 8

/-- The number of ticks in one unit. -/
def perUnit : Int64 := 100000000

def zero : Ticks m := ⟨0⟩

def least : Ticks m := ⟨Int64.minValue⟩

def greatest : Ticks m := ⟨Int64.maxValue⟩

instance : LT (Ticks m) := ⟨fun a b => a.count < b.count⟩
instance : LE (Ticks m) := ⟨fun a b => a.count ≤ b.count⟩
instance (a b : Ticks m) : Decidable (a < b) := inferInstanceAs (Decidable (a.count < b.count))
instance (a b : Ticks m) : Decidable (a ≤ b) := inferInstanceAs (Decidable (a.count ≤ b.count))
instance : Ord (Ticks m) := ⟨fun a b => compare a.count b.count⟩

instance : Std.TransOrd (Ticks m) :=
  inferInstanceAs (Std.TransCmp (compareOn fun a : Ticks m => a.count))

instance : Std.LawfulEqOrd (Ticks m) where
  eq_of_compare h := congrArg mk (Std.LawfulEqOrd.eq_of_compare h)

theorem compare_eq_lt_iff (a b : Ticks m) : compare a b = .lt ↔ a < b :=
  Std.compare_eq_lt (α := Int64)

def IsPositive (a : Ticks m) : Prop := 0 < a.count

instance (a : Ticks m) : Decidable a.IsPositive := inferInstanceAs (Decidable (_ < _))

/-! ## Conversion -/

/-- The outcome of a conversion that no tick count holds. -/
def beyond (mode : OverflowMode) (negative : Bool) : Except Fault (Ticks m) :=
  match mode with
  | .trapping => .error (.conversion m)
  | .silent => .ok (if negative then least else greatest)

/-- The amount of `exact` ticks; where no tick count holds it, or where there is no exact result,
the conversion went beyond the counts on the side that `negative` tells. -/
def ofExact (mode : OverflowMode) (negative : Bool) (exact : Option Int) :
    Except Fault (Ticks m) :=
  match exact with
  | none => beyond mode negative
  | some n => if IsSigned64 n then .ok ⟨Int64.ofInt n⟩ else beyond mode negative

def ofUnits (mode : OverflowMode) (units : Int64) : Except Fault (Ticks m) :=
  ofExact mode (units < 0) (some (units.toInt * perUnit.toInt))

/-- The amount of a decimal number of units, to the nearest tick. -/
def ofDecimal (mode : OverflowMode) (units : Decimal) : Except Fault (Ticks m) :=
  ofExact mode (units.mantissa < 0)
    ((units.mul? (Decimal.whole perUnit)).map Decimal.round)

/-- The number of units as a decimal with eight places. -/
def toDecimal (a : Ticks m) : Decimal := Decimal.ofInt64 a.count places (by decide)

/-- The product with a decimal factor, to the nearest tick. -/
def scale (mode : OverflowMode) (a : Ticks m) (factor : Decimal) : Except Fault (Ticks m) :=
  ofExact mode (decide (a.count < 0) != decide (factor.mantissa < 0))
    (((Decimal.whole a.count).mul? factor).map Decimal.round)

/-! ## Arithmetic -/

def add (mode : OverflowMode) (a b : Ticks m) : Except Fault (Ticks m) :=
  mk <$> mode.signed .add (a.count.toInt + b.count.toInt)

def sub (mode : OverflowMode) (a b : Ticks m) : Except Fault (Ticks m) :=
  mk <$> mode.signed .subtract (a.count.toInt - b.count.toInt)

def neg (mode : OverflowMode) (a : Ticks m) : Except Fault (Ticks m) :=
  mk <$> mode.signed .negate (-a.count.toInt)

def abs (mode : OverflowMode) (a : Ticks m) : Except Fault (Ticks m) :=
  if a.count < 0 then neg mode a else .ok a

def mul (mode : OverflowMode) (a : Ticks m) (factor : Int64) : Except Fault (Ticks m) :=
  mk <$> mode.signed .multiply (a.count.toInt * factor.toInt)

/-- The part of an amount, cut toward zero. Neither mode divides by zero, and neither has a result
for the one quotient that is no tick count. -/
def div (a : Ticks m) (divisor : Int64) : Except Fault (Ticks m) :=
  if divisor = 0 then
    .error .divisionByZero
  else
    mk <$> OverflowMode.trapping.signed .divide (a.count.toInt.tdiv divisor.toInt)

/-- The sum, if a tick count holds it. -/
def add? (a b : Ticks m) : Option (Ticks m) :=
  (add .trapping a b).toOption

def sub? (a b : Ticks m) : Option (Ticks m) :=
  (sub .trapping a b).toOption

/-- The amount of the tick count nearest to `n`. -/
def clamp (n : Int) : Ticks m := ⟨Int64.ofIntClamp n⟩

/-- The sum, or the end of the tick counts that it passes. -/
def addClamped (a b : Ticks m) : Ticks m := clamp (a.count.toInt + b.count.toInt)

def subClamped (a b : Ticks m) : Ticks m := clamp (a.count.toInt - b.count.toInt)

/-- The amounts of a list, added from the left. -/
def sum (mode : OverflowMode) (amounts : List (Ticks m)) : Except Fault (Ticks m) :=
  amounts.foldlM (add mode) zero

/-! ## Order and text -/

def max (a b : Ticks m) : Ticks m := if a ≤ b then b else a

def sort (amounts : List (Ticks m)) : List (Ticks m) := amounts.mergeSort

/-- The number of different amounts in a list. -/
def countDistinct (amounts : List (Ticks m)) : Nat := amounts.eraseDups.length

/-- The amount in units, always with eight places. -/
def text (a : Ticks m) : String := a.toDecimal.text

def describe (a : Ticks m) : String := m.label ++ "(" ++ toString a.count.toInt ++ ")"

end Ticks

end DepthFeed

/-!
# Arithmetic faults and what an overflow does

Tick counts and totals are 64-bit words. `OverflowMode` says what becomes of an exact result that is
no such word: a trapping computation stops with a `Fault`, a silent one keeps the result modulo
`2 ^ 64`. Division by zero is a fault in both.

The count of the gaps, the sum of the missing numbers and the sums of counters are such results. The
counters of a stream wrap around in both modes. So does every other counter, each of which moves by
one per operation: for fewer than `2 ^ 64` operations, a trapping counter does the same.
-/

namespace DepthFeed

inductive Measure where
  | price
  | quantity
deriving DecidableEq, Repr

def Measure.label : Measure → String
  | .price => "Price"
  | .quantity => "Quantity"

/-- The arithmetic operations whose result may fall outside the 64-bit words. -/
inductive Operation where
  | add
  | subtract
  | multiply
  | negate
  | divide
deriving DecidableEq, Repr

def Operation.label : Operation → String
  | .add => "add"
  | .subtract => "subtract"
  | .multiply => "multiply"
  | .negate => "negate"
  | .divide => "divide"

inductive Fault where
  /-- The exact result is no 64-bit word. -/
  | overflow (operation : Operation)
  | divisionByZero
  /-- A converted amount has no tick count. -/
  | conversion (measure : Measure)
deriving DecidableEq, Repr

def Fault.message : Fault → String
  | .overflow operation => "attempt to " ++ operation.label ++ " with overflow"
  | .divisionByZero => "attempt to divide by zero"
  | .conversion measure => measure.label ++ " tick conversion overflowed i64"

/-- What becomes of a result that is no 64-bit word. -/
inductive OverflowMode where
  /-- The computation stops with a fault. -/
  | trapping
  /-- Sums wrap around and conversions stop at the nearest word. -/
  | silent
deriving DecidableEq, Repr

/-- The integers that are signed 64-bit words. -/
def IsSigned64 (n : Int) : Prop := -0x8000_0000_0000_0000 ≤ n ∧ n < 0x8000_0000_0000_0000

instance (n : Int) : Decidable (IsSigned64 n) := inferInstanceAs (Decidable (_ ∧ _))

/-- The signed word for an exact result of `operation`. -/
def OverflowMode.signed (mode : OverflowMode) (operation : Operation) (exact : Int) :
    Except Fault Int64 :=
  match mode with
  | .silent => .ok (Int64.ofInt exact)
  | .trapping =>
    if IsSigned64 exact then .ok (Int64.ofInt exact) else .error (.overflow operation)

/-- The unsigned word for an exact result of `operation`. -/
def OverflowMode.unsigned (mode : OverflowMode) (operation : Operation) (exact : Nat) :
    Except Fault UInt64 :=
  match mode with
  | .silent => .ok (UInt64.ofNat exact)
  | .trapping =>
    if exact < 0x1_0000_0000_0000_0000 then .ok (UInt64.ofNat exact) else .error (.overflow operation)

end DepthFeed

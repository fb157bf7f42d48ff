import DepthFeed.Event

/-!
# Gaps in the numbering of a stream

A `Gap` records that a stream was expected to go on with one number and went on with another
one. `missing` counts the numbers in between; a number below the expected one is a regression, with
none missing.
-/

namespace DepthFeed

/-- An arrival that does not carry the expected number. -/
structure Gap where
  stream : StreamId
  expected : Int64
  received : Int64
deriving DecidableEq, Repr

namespace Gap

/-- How many numbers a gap skips; a distance is counted up to `2 ^ 63 - 1`. -/
def missing (g : Gap) : UInt64 :=
  UInt64.ofNat (min (g.received.toInt - g.expected.toInt).toNat 0x7FFF_FFFF_FFFF_FFFF)

/-- Whether the numbering went back. -/
def IsRegression (g : Gap) : Prop := g.received < g.expected

def Contains (g : Gap) (sequence : Int64) : Prop :=
  g.expected ≤ sequence ∧ sequence < g.received

instance (g : Gap) : Decidable g.IsRegression := inferInstanceAs (Decidable (_ < _))

instance (g : Gap) (sequence : Int64) : Decidable (g.Contains sequence) :=
  inferInstanceAs (Decidable (_ ∧ _))

end Gap

end DepthFeed

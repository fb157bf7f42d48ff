import Std.Data.TreeMap
import DepthFeed.Sequence.Gap

/-!
# Watching the numbers of the streams

A `SequenceMonitor` keeps the last number of every stream and reports each arrival that is not the
next one. It never holds an event back: the cursor moves to whatever arrived.

* `observe`: one arrival, and the gap it opens.
* `record`: a gap is counted, its missing numbers are added up, and it enters the history of the
  latest `historyLength` gaps. In a trapping computation the count may overflow, and after it the
  sum. The cursor has moved by then, and a gap that was counted stays so, but it enters neither the
  sum nor the history.
* `isSkipped`: whether a number was skipped by a gap in the history.
-/

namespace DepthFeed

/-- The last number of every stream, and what was missed. -/
structure SequenceMonitor where
  cursors : Std.TreeMap StreamId Int64
  recent : List Gap
  gaps : UInt64
  missing : UInt64

namespace SequenceMonitor

/-- How many gaps the history keeps. -/
def historyLength : Nat := 64

def empty : SequenceMonitor where
  cursors := ∅
  recent := []
  gaps := 0
  missing := 0

def latest {α : Type} (n : Nat) (entries : List α) : List α := entries.drop (entries.length - n)

/-- The monitor after a gap, which is the result unless the count of the gaps or the sum of the
missing numbers overflows. -/
def record (mode : OverflowMode) (m : SequenceMonitor) (gap : Gap) :
    SequenceMonitor × Except Fault (Option Gap) :=
  match mode.unsigned .add (m.gaps.toNat + 1) with
  | .error fault => (m, .error fault)
  | .ok gaps =>
    let counted := { m with gaps := gaps }
    match mode.unsigned .add (m.missing.toNat + gap.missing.toNat) with
    | .error fault => (counted, .error fault)
    | .ok total =>
      ({ counted with
          missing := total
          recent := latest historyLength (m.recent ++ [gap]) },
        .ok (some gap))

/-- The monitor after number `sequence` of `stream`, and the gap that it opens. -/
def observe (mode : OverflowMode) (m : SequenceMonitor) (stream : StreamId) (sequence : Int64) :
    SequenceMonitor × Except Fault (Option Gap) :=
  let moved := { m with cursors := m.cursors.insert stream sequence }
  match m.cursors[stream]? with
  | none => (moved, .ok none)
  | some previous =>
    let expected := previous + 1
    if sequence = expected then
      (moved, .ok none)
    else
      moved.record mode { stream := stream, expected := expected, received := sequence }

def last? (m : SequenceMonitor) (stream : StreamId) : Option Int64 := m.cursors[stream]?

def streams (m : SequenceMonitor) : Nat := m.cursors.size

/-- Whether a gap of `stream` in the history skipped a number. -/
def isSkipped (m : SequenceMonitor) (stream : StreamId) (sequence : Int64) : Bool :=
  m.recent.any fun gap => gap.stream = stream ∧ gap.Contains sequence

/-- The monitor without a cursor for `stream`, whose next number is taken as it comes. -/
def forget (m : SequenceMonitor) (stream : StreamId) : SequenceMonitor :=
  { m with cursors := m.cursors.erase stream }

def reset (_ : SequenceMonitor) : SequenceMonitor := .empty

end SequenceMonitor

end DepthFeed

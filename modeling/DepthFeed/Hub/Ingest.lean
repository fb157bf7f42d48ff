import DepthFeed.Hub.Dispatch
import DepthFeed.Ring.Pipe

/-!
# The ingest loop

The loop reads events from a ring and dispatches them. It follows the ring until the stop flag is
raised, or until the ring is empty and all its writers are gone; the events left in the ring after
that are dispatched or thrown away, as the shutdown rule says.

* `Ingest`: the state of the loop between two reads. A fault in a dispatch ends the loop there.
* `Ingest.follow`, `Ingest.flush`, `Ingest.flushAtMost`: reading until the stop flag, until the ring
  is empty, or a limited number of times.
* `Hub.dispatchUpTo`, `Hub.run`: a bounded batch, and the whole loop.
* `Hub.runFed`: the whole loop next to a producer that writes an event whenever the loop has
  nothing to read.
-/

namespace DepthFeed

/-- The ingest loop between two reads. -/
structure Ingest (C : Type) where
  hub : Hub C
  source : Pipe Event
  stop : Bool
  /-- How many events the loop dispatched. It moves by one with each event, so a word that counts them
  shows the same number as long as there are fewer than `2 ^ 64`. -/
  dispatched : Nat
  /-- The fault of the dispatch that ended the loop. -/
  fault : Option Fault
  notices : List Notice

namespace Ingest

variable {C : Type} [Consumer C] (mode : OverflowMode) (clock : Nat → Int64)

def start (hub : Hub C) (source : Pipe Event) (stop : Bool) : Ingest C where
  hub := hub
  source := source
  stop := stop
  dispatched := 0
  fault := none
  notices := []

/-- The loop after it dispatched an event; the clock tells the time of each dispatch. -/
def dispatch (s : Ingest C) (e : Event) : Ingest C :=
  let out := s.hub.dispatch mode (clock s.dispatched) e
  let s := { s with
    hub := out.hub
    stop := s.stop || out.raisesStop
    notices := s.notices ++ out.notices }
  match out.report with
  | .error fault => { s with fault := some fault }
  | .ok _ => { s with dispatched := s.dispatched + 1 }

def withSource (s : Ingest C) (source : Pipe Event) : Ingest C := { s with source := source }

def next (s : Ingest C) : Option Event × Ingest C :=
  match s with
  | ⟨hub, source, stop, dispatched, fault, notices⟩ =>
    let (e, source) := source.read
    (e, ⟨hub, source, stop, dispatched, fault, notices⟩)

omit [Consumer C] in
theorem next_eq (s : Ingest C) :
    s.next = (s.source.read.1, s.withSource s.source.read.2) := rfl

theorem source_dispatch (s : Ingest C) (e : Event) :
    (s.dispatch mode clock e).source = s.source := by
  unfold dispatch
  dsimp only
  split <;> rfl

/-- A loop that dispatched an event it read has less to read. -/
theorem backlog_dispatch_lt {s s' : Ingest C} {e : Event} (h : s.next = (some e, s')) :
    (s'.dispatch mode clock e).source.ring.backlog < s.source.ring.backlog := by
  rw [source_dispatch]
  simp only [next_eq, Pipe.read, Pipe.onRing_eq, Prod.mk.injEq] at h
  obtain ⟨hpop, rfl⟩ := h
  exact Ring.backlog_lt_of_pop (Prod.ext hpop rfl)

/-- The loop after it read and dispatched until the stop flag was raised or nothing was left. -/
def follow (s : Ingest C) : Ingest C :=
  if s.stop || s.fault.isSome then
    s
  else
    match _h : s.next with
    | (none, s') => s'
    | (some e, s') => (s'.dispatch mode clock e).follow
termination_by s.source.ring.backlog
decreasing_by exact backlog_dispatch_lt mode clock ‹_›

/-- The loop after it read and dispatched until nothing was left. -/
def flush (s : Ingest C) : Ingest C :=
  if s.fault.isSome then
    s
  else
    match _h : s.next with
    | (none, s') => s'
    | (some e, s') => (s'.dispatch mode clock e).flush
termination_by s.source.ring.backlog
decreasing_by exact backlog_dispatch_lt mode clock ‹_›

/-- The loop after it read and dispatched at most `n` times. -/
def flushAtMost (s : Ingest C) : Nat → Ingest C
  | 0 => s
  | n + 1 =>
    if s.fault.isSome then
      s
    else
      match s.next with
      | (none, s') => s'
      | (some e, s') => (s'.dispatch mode clock e).flushAtMost n

/-! ## Shutdown -/

/-- How many events a loop dispatched and how many it threw away, as exact numbers. -/
structure Summary where
  dispatched : Nat
  discarded : Nat
deriving DecidableEq, Repr

/-- Whether the loop is over: stopped by the flag or a fault, or out of events and writers. -/
def isOver (s : Ingest C) : Bool := s.stop || s.fault.isSome || s.source.writersGone

def conclude (s : Ingest C) (discarded : Nat) : Ingest C × Except Fault Summary :=
  match s.fault with
  | some fault => (s, .error fault)
  | none =>
    let thrown : List Notice := if 0 < discarded then [.eventsDiscarded discarded] else []
    let stopped : List Notice := [.loopStopped s.dispatched discarded]
    ({ s with notices := s.notices ++ thrown ++ stopped },
      .ok { dispatched := s.dispatched, discarded := discarded })

/-- The loop after what its shutdown rule does with the events left in the ring. A loop that ended
because its writers are gone first dispatches what they left. -/
def shutDown (s : Ingest C) (rule : ShutdownRule) : Ingest C × Except Fault Summary :=
  let s := if s.stop then s else s.flush mode clock
  match s.fault, rule with
  | some _, _ => s.conclude 0
  | none, .drain => (s.flush mode clock).conclude 0
  | none, .discard =>
    let (discarded, source) := s.source.discard
    (s.withSource source).conclude discarded

/-- The loop after a producer wrote some events, one whenever the loop had nothing to read. -/
def feed (s : Ingest C) (writer : Nat) : List Event → Ingest C
  | [] => s
  | e :: events =>
    let s := s.follow mode clock
    ((s.withSource (s.source.write writer e).2).follow mode clock).feed writer events

end Ingest

namespace Hub

variable {C : Type} [Consumer C] (mode : OverflowMode) (clock : Nat → Int64)

/-- The hub after it dispatched at most `n` events from a ring. -/
def dispatchUpTo (hub : Hub C) (source : Pipe Event) (n : Nat) : Ingest C :=
  (Ingest.start hub source false).flushAtMost mode clock n

/-- A loop that has read nothing, and the notice of it. -/
def beginRun (hub : Hub C) (source : Pipe Event) (stop : Bool) : Ingest C :=
  { Ingest.start hub source stop with notices := [.loopStarted source.ring.capacity] }

/-- The whole loop on a ring, from a stop flag that is raised or not. There is no summary while the
loop still waits for a writer. -/
def run (hub : Hub C) (source : Pipe Event) (stop : Bool) (rule : ShutdownRule) :
    Ingest C × Option (Except Fault Ingest.Summary) :=
  let s := (beginRun hub source stop).follow mode clock
  if s.isOver then
    let (s, summary) := s.shutDown mode clock rule
    (s, some summary)
  else
    (s, none)

/-- The whole loop on a ring whose writer writes some events and then closes. -/
def runFed (hub : Hub C) (source : Pipe Event) (writer : Nat) (events : List Event)
    (rule : ShutdownRule) : Ingest C × Except Fault Ingest.Summary :=
  let s := (beginRun hub source false).feed mode clock writer events
  let s := (s.withSource (s.source.closeWriter writer).2).follow mode clock
  s.shutDown mode clock rule

end Hub

end DepthFeed

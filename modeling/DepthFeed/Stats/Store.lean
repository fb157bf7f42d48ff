import DepthFeed.Stats.Table

/-!
# Counters that are shared

The counters of a stream are reached in two ways: by the name of the stream, through any reference
to a table that tracks it, and through a reference to the counters that was obtained before. A
`StatsStore` keeps the tables and the counters; a `TableRef` and a `CountersRef` only say where.

* `StatsStore.track`: the counters of a stream, which are made when it is first touched.
* `StatsStore.record`: a recording through a reference to the counters.
* `StatsStore.get?`, `StatsStore.snapshotAll`: what a table shows of one stream, and of all.
-/

namespace DepthFeed

/-- What is recorded of a stream. -/
inductive Recording where
  | message (latency : Int64)
  | gap (missing : UInt64)
  | reconnect
deriving DecidableEq, Repr

def Counters.recorded (c : Counters) : Recording → Counters
  | .message latency => c.countMessage latency
  | .gap missing => c.countGap missing
  | .reconnect => c.countReconnect

/-- Where the counters of a stream are kept. -/
structure CountersRef where
  place : Nat
deriving DecidableEq, Repr

/-- Where a table is kept. A copy of a reference says the same. -/
structure TableRef where
  place : Nat
deriving DecidableEq, Repr

structure StatsStore where
  /-- All counters that were ever made. -/
  counters : Array Counters
  /-- The streams of each table, with where their counters are. -/
  tables : Array (Std.TreeMap StreamId CountersRef)

namespace StatsStore

def empty : StatsStore := ⟨#[], #[]⟩

/-- One more table, which tracks nothing. -/
def addTable (m : StatsStore) : TableRef × StatsStore :=
  (⟨m.tables.size⟩, { m with tables := m.tables.push ∅ })

def ref? (m : StatsStore) (t : TableRef) (stream : StreamId) : Option CountersRef :=
  m.tables[t.place]?.bind fun refs => refs[stream]?

/-- The reference to the counters of `stream`, with new counters and a notice if it has none. -/
def track (m : StatsStore) (t : TableRef) (stream : StreamId) :
    CountersRef × StatsStore × List Notice :=
  match m.ref? t stream with
  | some ref => (ref, m, [])
  | none =>
    let ref : CountersRef := ⟨m.counters.size⟩
    (ref,
      { counters := m.counters.push .zero
        tables := m.tables.modify t.place fun refs => refs.insert stream ref },
      [.streamTracked stream])

/-- The store after a recording of the counters at `ref`. -/
def record (m : StatsStore) (ref : CountersRef) (recording : Recording) : StatsStore :=
  { m with counters := m.counters.modify ref.place fun c => c.recorded recording }

/-- The store after a reconnect of `stream`, which touches it. -/
def countReconnect (m : StatsStore) (t : TableRef) (stream : StreamId) :
    StatsStore × List Notice :=
  let (ref, m, notices) := m.track t stream
  (m.record ref .reconnect, notices)

/-! ## What is shown -/

def read? (m : StatsStore) (ref : CountersRef) : Option Counters := m.counters[ref.place]?

def get? (m : StatsStore) (t : TableRef) (stream : StreamId) : Option Counters :=
  (m.ref? t stream).bind m.read?

/-- The streams of a table with their counters. -/
def rows (m : StatsStore) (t : TableRef) : List (StreamId × Counters) :=
  (m.tables[t.place]?.elim [] Std.TreeMap.toList).filterMap fun (stream, ref) =>
    (m.read? ref).map fun c => (stream, c)

/-- Rows in the order of their streams. -/
def inOrder (rows : List (StreamId × Counters)) : List (StreamId × Counters) :=
  rows.mergeSort fun a b => (compare a.1 b.1).isLE

def snapshotAll (m : StatsStore) (t : TableRef) : List (StreamId × Counters) :=
  inOrder (m.rows t)

def total (mode : OverflowMode) (m : StatsStore) (t : TableRef) : Except Fault Counters :=
  StatsTable.sumOf mode ((m.rows t).map Prod.snd)

/-- A notice for every stream with what was counted on it. -/
def summary (m : StatsStore) (t : TableRef) : List Notice :=
  (m.snapshotAll t).map fun (stream, counters) => .streamSummary stream counters

end StatsStore

end DepthFeed

import DepthFeed.Stats.Store

/-!
# Counters that are kept at hand

Whoever counts the events of many streams need not look for the counters each time. A `StatsKeeper`
asks its table for the reference to the counters of a stream when it first counts an event of it,
and keeps the reference. Others reach the same counters through the table.

* `StatsKeeper.hold`: the reference that is kept, or that of the table, which is kept from then on.
* `StatsKeeper.countEvent`: an event and the gap before it, counted through one reference.
* `StatsKeeper.track`, `StatsKeeper.countReconnect`: what others do through the table.
-/

namespace DepthFeed

/-- A table of a store, with the references to its counters that are kept at hand. -/
structure StatsKeeper where
  store : StatsStore
  table : TableRef
  kept : Std.TreeMap StreamId CountersRef

namespace StatsKeeper

/-- A keeper of a new table, which has counted nothing. -/
def create : StatsKeeper where
  store := StatsStore.empty.addTable.2
  table := StatsStore.empty.addTable.1
  kept := ∅

/-- The reference to the counters of a stream, with a notice if the stream is new to the table. -/
def hold (k : StatsKeeper) (stream : StreamId) : CountersRef × StatsKeeper × List Notice :=
  match k.kept[stream]? with
  | some ref => (ref, k, [])
  | none =>
    let (ref, store, notices) := k.store.track k.table stream
    (ref, { k with store := store, kept := k.kept.insert stream ref }, notices)

def record (k : StatsKeeper) (ref : CountersRef) (recording : Recording) : StatsKeeper :=
  { k with store := k.store.record ref recording }

/-- The keeper after an event of a stream, and after the missing numbers of the gap before it, if
there is one. -/
def countEvent (k : StatsKeeper) (stream : StreamId) (latency : Int64) (missing : Option UInt64) :
    StatsKeeper × List Notice :=
  let (ref, k, notices) := k.hold stream
  let k := k.record ref (.message latency)
  match missing with
  | none => (k, notices)
  | some missing => (k.record ref (.gap missing), notices)

/-! ## Others -/

/-- The keeper after someone asked its table for the counters of a stream. -/
def track (k : StatsKeeper) (stream : StreamId) : StatsKeeper × List Notice :=
  let (_, store, notices) := k.store.track k.table stream
  ({ k with store := store }, notices)

def countReconnect (k : StatsKeeper) (stream : StreamId) : StatsKeeper × List Notice :=
  let (store, notices) := k.store.countReconnect k.table stream
  ({ k with store := store }, notices)

end StatsKeeper

end DepthFeed

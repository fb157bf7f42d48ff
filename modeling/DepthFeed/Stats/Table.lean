import Std.Data.TreeMap
import DepthFeed.Notice

/-!
# The counters of all streams

A `StatsTable` holds the counters of every stream that was touched, in the order of the streams.

* `track`: a stream gets its counters when it is first touched, which is the only notice here.
* `countMessage`, `countGap`, `countReconnect`: an occurrence on a stream, which touches it.
* `total`: the counters of all streams together, under an overflow mode.
-/

namespace DepthFeed

/-- The counters of the streams touched so far. -/
structure StatsTable where
  streams : Std.TreeMap StreamId Counters

namespace StatsTable

def empty : StatsTable := ⟨∅⟩

def get? (t : StatsTable) (stream : StreamId) : Option Counters := t.streams[stream]?

/-- The table with counters for `stream`, and a notice if they are new. -/
def track (t : StatsTable) (stream : StreamId) : StatsTable × List Notice :=
  if t.streams.contains stream then
    (t, [])
  else
    (⟨t.streams.insert stream .zero⟩, [.streamTracked stream])

/-- The table with the counters of `stream` changed, which touches the stream. -/
def record (t : StatsTable) (stream : StreamId) (change : Counters → Counters) :
    StatsTable × List Notice :=
  (⟨t.streams.insert stream (change ((t.get? stream).getD .zero))⟩, (t.track stream).2)

def countMessage (t : StatsTable) (stream : StreamId) (latency : Int64) :
    StatsTable × List Notice :=
  t.record stream (·.countMessage latency)

def countGap (t : StatsTable) (stream : StreamId) (missing : UInt64) :
    StatsTable × List Notice :=
  t.record stream (·.countGap missing)

def countReconnect (t : StatsTable) (stream : StreamId) : StatsTable × List Notice :=
  t.record stream (·.countReconnect)

/-- All touched streams with their counters, in the order of the streams. -/
def toList (t : StatsTable) : List (StreamId × Counters) := t.streams.toList

def sumOf (mode : OverflowMode) (counters : List Counters) : Except Fault Counters :=
  counters.foldlM (Counters.add mode) .zero

def total (mode : OverflowMode) (t : StatsTable) : Except Fault Counters :=
  sumOf mode (t.toList.map Prod.snd)

/-- A notice for every stream with what was counted on it. -/
def summary (t : StatsTable) : List Notice :=
  t.toList.map fun (stream, counters) => .streamSummary stream counters

end StatsTable

end DepthFeed

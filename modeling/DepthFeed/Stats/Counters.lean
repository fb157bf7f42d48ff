import DepthFeed.Fault

/-!
# Counters of one stream

`Counters` counts the messages, gaps, latencies and reconnects of one stream. The counters are
64-bit words that wrap around; the largest latency does not.

* `countMessage`, `countGap`, `countReconnect`: what one occurrence adds.
* `add`: the counters of two streams together, under an overflow mode.
* `meanLatency`, `messageRate`: rates as floating point numbers.
-/

namespace DepthFeed

/-- The counts of one stream. Latencies are in microseconds. -/
structure Counters where
  messages : UInt64
  gaps : UInt64
  missing : UInt64
  latencySum : UInt64
  samples : UInt64
  worstLatency : UInt64
  reconnects : UInt64
deriving DecidableEq, Repr

namespace Counters

def zero : Counters where
  messages := 0
  gaps := 0
  missing := 0
  latencySum := 0
  samples := 0
  worstLatency := 0
  reconnects := 0

/-- A latency as a count of microseconds, where a message from the future has none. -/
def latencyOf (latency : Int64) : UInt64 := UInt64.ofNat latency.toInt.toNat

/-- The counters after a message that took `latency` microseconds. -/
def countMessage (c : Counters) (latency : Int64) : Counters :=
  { c with
    messages := c.messages + 1
    latencySum := c.latencySum + latencyOf latency
    samples := c.samples + 1
    worstLatency := max c.worstLatency (latencyOf latency) }

def countGap (c : Counters) (missing : UInt64) : Counters :=
  { c with
    gaps := c.gaps + 1
    missing := c.missing + missing }

def countReconnect (c : Counters) : Counters :=
  { c with reconnects := c.reconnects + 1 }

/-- The counters of two streams together; the largest latency is the larger one. -/
def add (mode : OverflowMode) (a b : Counters) : Except Fault Counters := do
  let sum (x y : UInt64) : Except Fault UInt64 := mode.unsigned .add (x.toNat + y.toNat)
  return {
    messages := ← sum a.messages b.messages
    gaps := ← sum a.gaps b.gaps
    missing := ← sum a.missing b.missing
    latencySum := ← sum a.latencySum b.latencySum
    samples := ← sum a.samples b.samples
    worstLatency := max a.worstLatency b.worstLatency
    reconnects := ← sum a.reconnects b.reconnects }

end Counters

/-! ## Rates -/

/-- A span of time, in whole seconds and nanoseconds. -/
structure Elapsed where
  seconds : UInt64
  nanoseconds : UInt32
deriving DecidableEq, Repr

def Elapsed.toFloat (e : Elapsed) : Float :=
  e.seconds.toFloat + e.nanoseconds.toUInt64.toFloat / 1000000000

/-- The span of a number of seconds and any number of nanoseconds. -/
def Elapsed.ofParts (seconds : UInt64) (nanoseconds : UInt32) : Elapsed where
  seconds := seconds + (nanoseconds / 1000000000).toUInt64
  nanoseconds := nanoseconds % 1000000000

namespace Counters

/-- The mean latency in microseconds; 0 without a sample. -/
def meanLatency (c : Counters) : Float :=
  if c.samples = 0 then 0 else c.latencySum.toFloat / c.samples.toFloat

/-- The messages per second over a span of time; 0 for an empty span. -/
def messageRate (c : Counters) (elapsed : Elapsed) : Float :=
  if elapsed.toFloat > 0 then c.messages.toFloat / elapsed.toFloat else 0

end Counters

end DepthFeed

import DepthFeed.Consumer.Rejection
import DepthFeed.Hub.Interest
import DepthFeed.Sequence.Gap
import DepthFeed.Stats.Counters

/-!
# Notices

A `Notice` is one record that an operation leaves for its observers, with a severity, a fixed text
and named fields. Operations give their notices as values, in the order in which they occur.
-/

namespace DepthFeed

inductive Severity where
  | error
  | warn
  | info
  | debug
deriving DecidableEq, Repr

def Severity.label : Severity → String
  | .error => "ERROR"
  | .warn => "WARN"
  | .info => "INFO"
  | .debug => "DEBUG"

/-- The number under which a consumer is subscribed. -/
structure SubscriptionId where
  number : UInt64
deriving DecidableEq, Repr

def SubscriptionId.describe (id : SubscriptionId) : String :=
  "ConsumerId(" ++ toString id.number.toNat ++ ")"

inductive Notice where
  /-- A book refuses an event of another instrument. -/
  | foreignEvent (book instrument : Instrument) (sequence : Int64) (kind : Event.Kind)
  /-- A trade hits a price where nothing rests. -/
  | noRestingLevel (instrument : Instrument) (price : Price)
  | streamTracked (stream : StreamId)
  /-- What has been counted on a stream. -/
  | streamSummary (stream : StreamId) (counters : Counters)
  | hubReady (alertCapacity : Nat)
  | consumerJoined (consumer : String) (id : SubscriptionId) (interest : Interest)
  | consumerLeft (consumer : String) (id : SubscriptionId) (delivered failures : UInt64)
  /-- An event does not carry the expected number. -/
  | gapDetected (gap : Gap)
  /-- The alert of a gap finds no room. -/
  | alertDropped (stream : StreamId)
  | eventRejected (consumer : String) (stream : StreamId) (sequence : Int64)
      (error : Rejection)
  | consumerCrashed (consumer : String) (stream : StreamId) (sequence : Int64) (crash : Crash)
  | cursorReset (stream : StreamId)
  | loopStarted (capacity : Nat)
  | eventsDiscarded (discarded : Nat)
  | loopStopped (dispatched discarded : Nat)
deriving DecidableEq, Repr

inductive FieldValue where
  | number (n : Int)
  | text (s : String)
deriving DecidableEq, Repr

namespace Notice

def severity : Notice → Severity
  | foreignEvent .. => .warn
  | noRestingLevel .. => .debug
  | streamTracked .. => .info
  | streamSummary .. => .info
  | hubReady .. => .info
  | consumerJoined .. => .info
  | consumerLeft .. => .info
  | gapDetected .. => .warn
  | alertDropped .. => .debug
  | eventRejected .. => .warn
  | consumerCrashed .. => .error
  | cursorReset .. => .debug
  | loopStarted .. => .info
  | eventsDiscarded .. => .warn
  | loopStopped .. => .info

/-- The text of a notice, which is the same for all values of its fields. -/
def message : Notice → String
  | foreignEvent .. => "Dropping event addressed to another instrument"
  | noRestingLevel .. => "Trade at price with no resting level"
  | streamTracked .. => "Tracking new stream"
  | streamSummary .. => "Stream statistics"
  | hubReady .. => "Distributor initialized"
  | consumerJoined .. => "Consumer registered"
  | consumerLeft .. => "Consumer unregistered"
  | gapDetected .. => "Sequence gap detected"
  | alertDropped .. => "Gap alert channel full, alert dropped"
  | eventRejected .. => "Consumer rejected event"
  | consumerCrashed .. => "Consumer panicked"
  | cursorReset .. => "Sequence cursor reset"
  | loopStarted .. => "Ingest loop started"
  | eventsDiscarded .. => "Discarded buffered events on shutdown"
  | loopStopped .. => "Ingest loop stopped"

/-- The fields of a notice. The rates of a stream depend on the clock and are left out. -/
def fields : Notice → List (String × FieldValue)
  | foreignEvent book instrument sequence kind =>
    [("book", .text book.text), ("instrument", .text instrument.text),
      ("sequence", .number sequence.toInt), ("kind", .text kind.label)]
  | noRestingLevel instrument price =>
    [("instrument", .text instrument.text), ("price", .text price.text)]
  | streamTracked stream => [("stream", .text stream.text)]
  | streamSummary stream counters =>
    [("stream", .text stream.text), ("messages", .number counters.messages.toNat),
      ("gaps", .number counters.gaps.toNat),
      ("missing", .number counters.missing.toNat),
      ("reconnects", .number counters.reconnects.toNat)]
  | hubReady alertCapacity => [("alert_capacity", .number alertCapacity)]
  | consumerJoined consumer id interest =>
    [("consumer", .text consumer), ("id", .number id.number.toNat),
      ("filter", .text interest.describe)]
  | consumerLeft consumer id delivered failures =>
    [("consumer", .text consumer), ("id", .number id.number.toNat),
      ("delivered", .number delivered.toNat), ("failures", .number failures.toNat)]
  | gapDetected gap =>
    [("stream", .text gap.stream.text), ("expected", .number gap.expected.toInt),
      ("received", .number gap.received.toInt), ("missing", .number gap.missing.toNat)]
  | alertDropped stream => [("stream", .text stream.text)]
  | eventRejected consumer stream sequence error =>
    [("consumer", .text consumer), ("stream", .text stream.text),
      ("sequence", .number sequence.toInt), ("error", .text error.message)]
  | consumerCrashed consumer stream sequence crash =>
    [("consumer", .text consumer), ("stream", .text stream.text),
      ("sequence", .number sequence.toInt), ("panic", .text crash.message)]
  | cursorReset stream => [("stream", .text stream.text)]
  | loopStarted capacity => [("capacity", .number capacity)]
  | eventsDiscarded discarded => [("discarded", .number discarded)]
  | loopStopped dispatched discarded =>
    [("dispatched", .number dispatched), ("discarded", .number discarded)]

end Notice

end DepthFeed

import DepthFeed.Book.Queries
import DepthFeed.Settings
import DepthFeed.Json.Codec
import DepthFeed.Sequence.Gap
import DepthFeed.Stats.Counters

/-!
# Records as JSON

The written form of events, levels, gaps, snapshots and settings. A record is written as an object
with all its fields. It is read from an object, whose further members do not matter, or from an
array of its fields in order. Only an order count may be left out, and every field of the settings,
where an array may also end early.
-/

namespace DepthFeed

open JsonCodec

/-! ## Names and numbers -/

def Side.name : Side → String
  | .buy => "Buy"
  | .sell => "Sell"

def Event.Kind.name : Event.Kind → String
  | .update => "Update"
  | .trade => "Trade"
  | .snapshot => "Snapshot"

def Phase.name : Phase → String
  | .fresh => "Uninitialized"
  | .live => "Live"

def TradeRule.name : TradeRule → String
  | .countOnly => "informational"
  | .takeResting => "decrement_resting"

def ShutdownRule.name : ShutdownRule → String
  | .drain => "drain"
  | .discard => "discard"

instance : JsonCodec Side where
  encode s := .string s.name
  decode? := ofName? [.buy, .sell] Side.name

instance : JsonCodec Event.Kind where
  encode k := .string k.name
  decode? := ofName? [.update, .trade, .snapshot] Event.Kind.name

instance : JsonCodec Phase where
  encode s := .string s.name
  decode? := ofName? [.fresh, .live] Phase.name

instance : JsonCodec TradeRule where
  encode p := .string p.name
  decode? := ofName? [.countOnly, .takeResting] TradeRule.name

instance : JsonCodec ShutdownRule where
  encode p := .string p.name
  decode? := ofName? [.drain, .discard] ShutdownRule.name

instance {m : Measure} : JsonCodec (Ticks m) where
  encode a := encode a.count
  decode? j := (decode? j).map Ticks.mk

instance : JsonCodec Instrument where
  encode i := encode i.number
  decode? j := (decode? j).map Instrument.mk

instance : JsonCodec Exchange where
  encode e := encode e.number
  decode? j := (decode? j).map Exchange.mk

/-! ## Records -/

def StreamId.fieldNames : List String := ["exchange", "instrument"]

instance : JsonCodec StreamId where
  encode k := .object [("exchange", encode k.exchange), ("instrument", encode k.instrument)]
  decode? j := do
    match ← j.fields? StreamId.fieldNames with
    | [exchange, instrument] => return ⟨← required? exchange, ← required? instrument⟩
    | _ => none

def Gap.fieldNames : List String := ["stream", "expected", "received"]

instance : JsonCodec Gap where
  encode g := .object [("stream", encode g.stream), ("expected", encode g.expected),
    ("received", encode g.received)]
  decode? j := do
    match ← j.fields? Gap.fieldNames with
    | [stream, expected, received] =>
      return {
        stream := ← required? stream
        expected := ← required? expected
        received := ← required? received }
    | _ => none

def Level.fieldNames : List String :=
  ["price", "quantity", "sequence", "timestamp_us", "order_count"]

instance : JsonCodec Level where
  encode l := .object [("price", encode l.price), ("quantity", encode l.quantity),
    ("sequence", encode l.sequence), ("timestamp_us", encode l.timestamp),
    ("order_count", encode l.orders)]
  decode? j := do
    match ← j.fields? Level.fieldNames with
    | [price, quantity, sequence, timestamp, orders] =>
      return {
        price := ← required? price
        quantity := ← required? quantity
        sequence := ← required? sequence
        timestamp := ← required? timestamp
        orders := ← orElse? none orders }
    | _ => none

def Event.fieldNames : List String :=
  ["sequence", "timestamp_us", "side", "price", "quantity", "kind", "instrument_id", "exchange",
    "order_count"]

instance : JsonCodec Event where
  encode e := .object [("sequence", encode e.sequence), ("timestamp_us", encode e.timestamp),
    ("side", encode e.side), ("price", encode e.price), ("quantity", encode e.quantity),
    ("kind", encode e.kind), ("instrument_id", encode e.instrument),
    ("exchange", encode e.exchange), ("order_count", encode e.orders)]
  decode? j := do
    match ← j.fields? Event.fieldNames with
    | [sequence, timestamp, side, price, quantity, kind, instrument, exchange, orders] =>
      return {
        sequence := ← required? sequence
        timestamp := ← required? timestamp
        side := ← required? side
        price := ← required? price
        quantity := ← required? quantity
        kind := ← required? kind
        instrument := ← required? instrument
        exchange := ← required? exchange
        orders := ← orElse? none orders }
    | _ => none

def Snapshot.fieldNames : List String :=
  ["instrument_id", "sequence", "timestamp_us", "bids", "asks"]

instance : JsonCodec Snapshot where
  encode s := .object [("instrument_id", encode s.instrument), ("sequence", encode s.sequence),
    ("timestamp_us", encode s.timestamp), ("bids", encode s.bids), ("asks", encode s.asks)]
  decode? j := do
    match ← j.fields? Snapshot.fieldNames with
    | [instrument, sequence, timestamp, bids, asks] =>
      return {
        instrument := ← required? instrument
        sequence := ← required? sequence
        timestamp := ← required? timestamp
        bids := ← required? bids
        asks := ← required? asks }
    | _ => none

def Settings.fieldNames : List String :=
  ["ring_capacity", "gap_alert_capacity", "snapshot_depth", "snapshot_interval", "trade_policy",
    "shutdown_policy"]

instance : JsonCodec Settings where
  encode c := .object [("ring_capacity", encode c.ringCapacity),
    ("gap_alert_capacity", encode c.alertCapacity), ("snapshot_depth", encode c.publishDepth),
    ("snapshot_interval", encode c.publishInterval), ("trade_policy", encode c.tradeRule),
    ("shutdown_policy", encode c.shutdownRule)]
  decode? j := do
    match ← j.leadingFields? Settings.fieldNames with
    | [ringCapacity, alertCapacity, publishDepth, publishInterval, tradeRule,
        shutdownRule] =>
      let standard := Settings.standard
      return {
        ringCapacity := ← orElse? standard.ringCapacity ringCapacity
        alertCapacity := ← orElse? standard.alertCapacity alertCapacity
        publishDepth := ← orElse? standard.publishDepth publishDepth
        publishInterval := ← orElse? standard.publishInterval publishInterval
        tradeRule := ← orElse? standard.tradeRule tradeRule
        shutdownRule := ← orElse? standard.shutdownRule shutdownRule }
    | _ => none

/-! ## Counters -/

def Elapsed.toJson (e : Elapsed) : Json :=
  .object [("secs", encode e.seconds), ("nanos", encode e.nanoseconds)]

/-- The written form of the counters of a stream after a span of time. -/
def Counters.toJson (c : Counters) (elapsed : Elapsed) : Json :=
  .object [("messages", encode c.messages), ("gap_events", encode c.gaps),
    ("missing_sequences", encode c.missing), ("latency_sum_us", encode c.latencySum),
    ("latency_samples", encode c.samples), ("max_latency_us", encode c.worstLatency),
    ("reconnects", encode c.reconnects), ("elapsed", elapsed.toJson)]

end DepthFeed

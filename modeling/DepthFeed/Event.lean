import DepthFeed.Ticks

/-!
# Market data events

An event reports one change at one price of one instrument, numbered within the stream of its
exchange and instrument.

* `Side`, `Event.Kind`: the two sides of a book, and what an event does to it.
* `StreamId`: an exchange and an instrument, ordered by exchange first.
* `Event`: the report itself, and `Event.stream`.
-/

namespace DepthFeed

/-! ## Identifiers -/

structure Instrument where
  number : Int32
deriving DecidableEq, Repr

structure Exchange where
  number : UInt16
deriving DecidableEq, Repr

def Instrument.text (i : Instrument) : String := toString i.number.toInt

def Exchange.text (e : Exchange) : String := toString e.number.toNat

/-- The feed of one instrument from one exchange, which numbers its own events. -/
structure StreamId where
  exchange : Exchange
  instrument : Instrument
deriving DecidableEq, Repr

namespace StreamId

/-- A stream as `exchange/instrument`. -/
def text (k : StreamId) : String := k.exchange.text ++ "/" ++ k.instrument.text

/-- Streams are ordered by exchange, then by instrument. -/
instance : Ord StreamId where
  compare := compareLex (compareOn (·.exchange.number)) (compareOn (·.instrument.number))

theorem compare_def (a b : StreamId) :
    compare a b =
      (compare a.exchange.number b.exchange.number).then
        (compare a.instrument.number b.instrument.number) := rfl

instance : Std.TransOrd StreamId :=
  inferInstanceAs (Std.TransCmp (compareLex (compareOn fun k : StreamId => k.exchange.number)
    (compareOn fun k : StreamId => k.instrument.number)))

instance : Std.LawfulEqOrd StreamId where
  eq_of_compare {a b} h := by
    obtain ⟨⟨ea⟩, ⟨ia⟩⟩ := a
    obtain ⟨⟨eb⟩, ⟨ib⟩⟩ := b
    rw [compare_def, Ordering.then_eq_eq] at h
    have he : ea = eb := Std.LawfulEqOrd.eq_of_compare h.1
    have hi : ia = ib := Std.LawfulEqOrd.eq_of_compare h.2
    rw [he, hi]

end StreamId

/-! ## Sides and kinds -/

/-- A side of the book: the resting buyers or the resting sellers. -/
inductive Side where
  | buy
  | sell
deriving DecidableEq, Repr

namespace Side

def ofCode? : UInt8 → Option Side
  | 0 => some .buy
  | 1 => some .sell
  | _ => none

def opposite : Side → Side
  | .buy => .sell
  | .sell => .buy

/-- Whether `price` is more aggressive than `limit`: buyers compete upward, sellers downward. -/
def IsBetter (side : Side) (price limit : Price) : Prop :=
  match side with
  | .buy => limit < price
  | .sell => price < limit

/-- Whether `price` is at least as aggressive as `limit`. -/
def IsWithin (side : Side) (price limit : Price) : Prop :=
  match side with
  | .buy => limit ≤ price
  | .sell => price ≤ limit

instance (side : Side) (price limit : Price) : Decidable (side.IsBetter price limit) := by
  cases side <;> unfold IsBetter <;> infer_instance

instance (side : Side) (price limit : Price) : Decidable (side.IsWithin price limit) := by
  cases side <;> unfold IsWithin <;> infer_instance

/-- The order of prices in which the more aggressive one comes first. -/
def priority (side : Side) (a b : Price) : Ordering :=
  match side with
  | .buy => compare b a
  | .sell => compare a b

theorem priority_eq_lt_iff (side : Side) (a b : Price) :
    side.priority a b = .lt ↔ side.IsBetter a b := by
  cases side <;> exact Ticks.compare_eq_lt_iff _ _

instance (side : Side) : Std.TransCmp side.priority :=
  match side with
  | .buy => inferInstanceAs (Std.TransCmp fun a b : Price => compare b a)
  | .sell => inferInstanceAs (Std.TransCmp fun a b : Price => compare a b)

instance (side : Side) : Std.LawfulEqCmp side.priority where
  eq_of_compare {a b} h := by
    cases side
    · exact (Std.LawfulEqOrd.eq_of_compare h : b = a).symm
    · exact (Std.LawfulEqOrd.eq_of_compare h : a = b)

end Side

inductive Event.Kind where
  /-- The new quantity resting at a price. -/
  | update
  /-- A trade at a price; its side is the aggressor's. -/
  | trade
  /-- The first level of a book that starts anew. -/
  | snapshot
deriving DecidableEq, Repr

namespace Event.Kind

def ofCode? : UInt8 → Option Event.Kind
  | 0 => some .update
  | 1 => some .trade
  | 2 => some .snapshot
  | _ => none

def label : Event.Kind → String
  | .update => "update"
  | .trade => "trade"
  | .snapshot => "snapshot"

end Event.Kind

/-! ## Events -/

/-- One numbered report from a stream. Times are in microseconds. -/
structure Event where
  sequence : Int64
  timestamp : Int64
  side : Side
  price : Price
  quantity : Quantity
  kind : Event.Kind
  instrument : Instrument
  exchange : Exchange
  orders : Option UInt32
deriving DecidableEq, Repr

def Event.stream (e : Event) : StreamId := ⟨e.exchange, e.instrument⟩

end DepthFeed

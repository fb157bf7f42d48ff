import DepthFeed.Book.Ladder

/-!
# Order books

A `Book` holds both sides of one instrument and follows its events.

* `Book.apply`: an event changes the book, or is refused when it is for another instrument.
  An update sets a level, a trade may take from the level it hit, and a snapshot event starts the
  book anew with one level.
* `Book.load`: a whole image replaces both sides.
* `Book.take`, `Book.run`: the book after operations that may be refused.
-/

namespace DepthFeed

/-- What a trade does to the level it hit. -/
inductive TradeRule where
  /-- Trades are counted; the feed reports what they leave. -/
  | countOnly
  /-- A trade takes its quantity from the resting level. -/
  | takeResting
deriving DecidableEq, Repr

/-- Whether a book has taken any operation. -/
inductive Phase where
  | fresh
  | live
deriving DecidableEq, Repr

inductive Refusal where
  | otherInstrument (expected received : Instrument)
deriving DecidableEq, Repr

def Refusal.message : Refusal → String
  | .otherInstrument expected received =>
    "event for instrument " ++ received.text ++ " delivered to book for instrument " ++
      expected.text

/-- The levels of both sides as they were at one event, in any order. -/
structure Image where
  sequence : Int64
  timestamp : Int64
  bids : List (Price × Quantity)
  asks : List (Price × Quantity)
deriving DecidableEq, Repr

/-- The two sides of one instrument, and the counts of what changed them. -/
structure Book where
  instrument : Instrument
  tradeRule : TradeRule
  bids : Ladder .buy
  asks : Ladder .sell
  phase : Phase
  sequence : Int64
  timestamp : Int64
  updates : UInt64
  trades : UInt64

/-- The level that an event reports at its price. -/
def Event.level (e : Event) : Level where
  price := e.price
  quantity := e.quantity
  sequence := e.sequence
  timestamp := e.timestamp
  orders := e.orders

namespace Book

def empty (instrument : Instrument) (tradeRule : TradeRule) : Book where
  instrument := instrument
  tradeRule := tradeRule
  bids := .empty
  asks := .empty
  phase := .fresh
  sequence := 0
  timestamp := 0
  updates := 0
  trades := 0

/-! ## Sides -/

def ladder (b : Book) : (s : Side) → Ladder s
  | .buy => b.bids
  | .sell => b.asks

def setLadder (b : Book) : (s : Side) → Ladder s → Book
  | .buy, bids => { b with bids := bids }
  | .sell, asks => { b with asks := asks }

def put (b : Book) (s : Side) (level : Level) : Book :=
  b.setLadder s ((b.ladder s).put level)

def clear (b : Book) : Book := { b with bids := .empty, asks := .empty }

/-! ## Events -/

/-- The book after a trade: it is counted, and under `takeResting` it takes its quantity from
the level it hit, on the side opposite the aggressor. -/
def trade (b : Book) (e : Event) : Book :=
  let counted := { b with trades := b.trades + 1 }
  match b.tradeRule with
  | .countOnly => counted
  | .takeResting =>
    let resting := e.side.opposite
    counted.setLadder resting
      ((counted.ladder resting).hit e.price e.quantity e.sequence e.timestamp).2

def change (b : Book) (e : Event) : Book :=
  match e.kind with
  | .update => b.put e.side e.level
  | .trade => b.trade e
  | .snapshot => b.clear.put e.side e.level

/-- The book after an accepted operation of the given sequence number and time. -/
def stamp (b : Book) (sequence timestamp : Int64) : Book :=
  { b with
    sequence := sequence
    timestamp := timestamp
    updates := b.updates + 1
    phase := .live }

def apply (b : Book) (e : Event) : Except Refusal Book :=
  if e.instrument = b.instrument then
    .ok ((b.change e).stamp e.sequence e.timestamp)
  else
    .error (.otherInstrument b.instrument e.instrument)

/-! ## Images -/

def imageLevel (image : Image) (entry : Price × Quantity) : Level where
  price := entry.1
  quantity := entry.2
  sequence := image.sequence
  timestamp := image.timestamp
  orders := none

/-- The book with exactly the levels of an image. -/
def load (b : Book) (image : Image) : Book :=
  let bids := image.bids.foldl (fun s entry => s.put (imageLevel image entry)) Ladder.empty
  let asks := image.asks.foldl (fun s entry => s.put (imageLevel image entry)) Ladder.empty
  { b with bids := bids, asks := asks }.stamp image.sequence image.timestamp

/-! ## Runs -/

inductive Change where
  | event (e : Event)
  | image (i : Image)
deriving DecidableEq, Repr

/-- The book after an operation; a refused event leaves it as it is. -/
def take (b : Book) : Change → Book
  | .event e => (b.apply e).toOption.getD b
  | .image i => b.load i

def run (b : Book) (changes : List Change) : Book := changes.foldl take b

end Book

end DepthFeed

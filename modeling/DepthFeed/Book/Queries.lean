import DepthFeed.Book.Basic

/-!
# Questions to an order book

Prices and quantities at the top of a book, sums over its best levels, and snapshots.

* `mid`, `spread`, `isCrossed` look at the best level of each side, and answer zero or false
  when a side is empty.
* `imbalance`: `(B - A) / (B + A)` for the bid and ask quantities in the best levels.
* `snapshot`: the best levels of both sides as a value of their own.
-/

namespace DepthFeed

/-- The best levels of both sides of a book at one moment. -/
structure Snapshot where
  instrument : Instrument
  sequence : Int64
  timestamp : Int64
  bids : List Level
  asks : List Level
deriving DecidableEq, Repr

def Snapshot.bestBid? (s : Snapshot) : Option Level := s.bids.head?

def Snapshot.bestAsk? (s : Snapshot) : Option Level := s.asks.head?

namespace Book

/-- The price and quantity of the best level of a side, or zeros. -/
def best (b : Book) (s : Side) : Price × Quantity :=
  match (b.ladder s).best? with
  | none => (.zero, .zero)
  | some level => (level.price, level.quantity)

def inside? (b : Book) : Option (Price × Price) :=
  match b.bids.best?, b.asks.best? with
  | some bid, some ask => some (bid.price, ask.price)
  | _, _ => none

/-- The middle between the best bid and the best ask, rounded down. -/
def mid (b : Book) : Price :=
  match b.inside? with
  | none => .zero
  | some (bid, ask) => ⟨Int64.ofInt ((bid.count.toInt + ask.count.toInt) / 2)⟩

def spread (b : Book) : Price :=
  match b.inside? with
  | none => .zero
  | some (bid, ask) => ask.subClamped bid

def isCrossed (b : Book) : Bool :=
  match b.inside? with
  | none => false
  | some (bid, ask) => ask ≤ bid

/-- The difference of the bid and ask quantities in the best `n` levels, as a share of their sum; 0
if there are none, and if a sum is too large for a decimal. -/
def imbalance (b : Book) (n : Nat) : Decimal :=
  let bid := b.bids.depthSum n
  let ask := b.asks.depthSum n
  if bid + ask = 0 then
    .zero
  else
    match Decimal.ofParts? (bid - ask) 0, Decimal.ofParts? (bid + ask) 0 with
    | some difference, some total => (difference.div? total).getD .zero
    | _, _ => .zero

def snapshot (b : Book) (n : Nat) : Snapshot where
  instrument := b.instrument
  sequence := b.sequence
  timestamp := b.timestamp
  bids := b.bids.top n
  asks := b.asks.top n

end Book

end DepthFeed

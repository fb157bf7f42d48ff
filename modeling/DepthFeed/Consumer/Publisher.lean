import DepthFeed.Book.Notices
import DepthFeed.Book.Queries
import DepthFeed.Consumer.Basic

/-!
# Consumers that keep a book

A `BookPublisher` applies its events to a book and publishes a snapshot of it after every `interval`
accepted events, and whenever it is asked to. An interval of zero leaves it at the latter.
-/

namespace DepthFeed

/-- A book and its published snapshot. -/
structure BookPublisher where
  book : Book
  /-- How many levels of each side are published. -/
  depth : Nat
  /-- How many accepted events lie between two publications. -/
  interval : UInt64
  /-- How many events were accepted since the last publication. -/
  sinceLast : UInt64
  published : Snapshot

namespace BookPublisher

/-- A consumer with an empty book, which is published. -/
def empty (instrument : Instrument) (tradeRule : TradeRule) (depth : Nat)
    (interval : UInt64) : BookPublisher :=
  let book := Book.empty instrument tradeRule
  { book := book, depth := depth, interval := interval, sinceLast := 0,
    published := book.snapshot depth }

def name (c : BookPublisher) : String := "book-" ++ c.book.instrument.text

def publish (c : BookPublisher) : BookPublisher :=
  { c with published := c.book.snapshot c.depth, sinceLast := 0 }

/-- The consumer with an accepted event counted, and its book published if it is time to. -/
def countAccepted (c : BookPublisher) : BookPublisher :=
  let counted := { c with sinceLast := c.sinceLast + 1 }
  if 0 < counted.interval ∧ counted.interval ≤ counted.sinceLast then counted.publish
  else counted

def accept (c : BookPublisher) (e : Event) : Except Rejection BookPublisher :=
  match c.book.apply e with
  | .error refusal => .error (.refused refusal)
  | .ok book => .ok { c with book := book }.countAccepted

instance : Consumer BookPublisher where
  name := name
  post c e :=
    let notices := c.book.noticesOn e
    match c.accept e with
    | .error error =>
      { consumer := c, verdict := .rejected error, notices := notices, raisesStop := false }
    | .ok c' =>
      { consumer := c', verdict := .accepted, notices := notices, raisesStop := false }

end BookPublisher

end DepthFeed

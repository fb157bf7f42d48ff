import Std.Data.TreeMap
import DepthFeed.Event

/-!
# One side of an order book

A `Ladder side` holds the resting price levels of one side, at most one for each price. Its list of
`levels` has the best price first: bids descend and asks ascend.

* `put`: a level takes the place of the one at its price; a quantity that is not positive removes
  it.
* `hit`: a trade takes quantity away from a resting level.
* `top`, `depth`, `atOrBetter`, `walk`: queries, from the best level on.
* `WellFormed`: every level stands at its own price and holds a positive quantity.
* `find?_put`, `find?_remove`: a change is seen at its own price and nowhere else.
* `best?_eq_head?_levels`, `top_eq_take_levels`, `length_levels`: what is read without the list of
  levels agrees with it.
-/

namespace DepthFeed

/-- What rests at one price, and the event that last changed it. -/
structure Level where
  price : Price
  quantity : Quantity
  sequence : Int64
  timestamp : Int64
  orders : Option UInt32
deriving DecidableEq, Repr

/-- The resting levels of one side. -/
structure Ladder (side : Side) where
  /-- The level at each price, in the order of the prices from the best one on. -/
  byPrice : Std.TreeMap Price Level side.priority

namespace Ladder

variable {side : Side}

def empty : Ladder side := ⟨∅⟩

def find? (b : Ladder side) (price : Price) : Option Level := b.byPrice[price]?

/-- The levels, best first. -/
def levels (b : Ladder side) : List Level := b.byPrice.toList.map Prod.snd

/-- Every level stands at its own price and holds a positive quantity. -/
structure WellFormed (b : Ladder side) : Prop where
  price_eq : ∀ {price level}, b.find? price = some level → level.price = price
  positive : ∀ {price level}, b.find? price = some level → level.quantity.IsPositive

/-! ## Changes -/

def remove (b : Ladder side) (price : Price) : Ladder side := ⟨b.byPrice.erase price⟩

/-- The side with `level` resting at its price, or with nothing there if the quantity is not
positive. -/
def put (b : Ladder side) (level : Level) : Ladder side :=
  if level.quantity.IsPositive then ⟨b.byPrice.insert level.price level⟩ else b.remove level.price

/-- What a trade leaves at a price, if a level rests there: the level keeps its order count and
takes the sequence number and time of the trade, or goes when nothing is left. -/
def hit (b : Ladder side) (price : Price) (traded : Quantity) (sequence timestamp : Int64) :
    Option Quantity × Ladder side :=
  match b.find? price with
  | none => (none, b)
  | some level =>
    let remaining := level.quantity.subClamped traded
    (some (if remaining.IsPositive then remaining else .zero),
      b.put { level with quantity := remaining, sequence := sequence, timestamp := timestamp })

/-! ## Queries -/

def size (b : Ladder side) : Nat := b.byPrice.size

def isEmpty (b : Ladder side) : Bool := b.size = 0

/-- The level with the most aggressive price. -/
def best? (b : Ladder side) : Option Level := b.byPrice.minKey?.bind b.find?

/-- The level with exactly `i` better ones. -/
def rank? (b : Ladder side) (i : Nat) : Option Level := b.levels[i]?

/-- The best `n` levels, without a look at the others. -/
def top (b : Ladder side) (n : Nat) : List Level := (b.byPrice.iter.take n).toList.map Prod.snd

/-- The exact sum of the quantities of some levels, in ticks. -/
def sumOf (levels : List Level) : Int :=
  levels.foldr (fun l total => l.quantity.count.toInt + total) 0

def depthSum (b : Ladder side) (n : Nat) : Int := sumOf (b.top n)

/-- The quantity in the best `n` levels, or the largest quantity if there is more. -/
def depth (b : Ladder side) (n : Nat) : Quantity := .clamp (b.depthSum n)

/-- The levels met before the first price past `limit`. -/
def upTo (b : Ladder side) (limit : Price) : List Level :=
  b.levels.takeWhile fun l => side.IsWithin l.price limit

/-- The quantity at `limit` or better, or the largest quantity if there is more. -/
def atOrBetter (b : Ladder side) (limit : Price) : Quantity := .clamp (sumOf (b.upTo limit))

/-! ## Walking over the levels -/

/-- A walk over levels, by those it has not visited. -/
structure Walk where
  rest : List Level
deriving DecidableEq, Repr

def walk (b : Ladder side) : Walk := ⟨b.levels⟩

/-- The next `n` levels of a walk, or fewer at its end, and the walk after them. -/
def Walk.advance (w : Walk) (n : Nat) : List Level × Walk := (w.rest.take n, ⟨w.rest.drop n⟩)

/-- How many levels a walk has still to visit: at least, and at most. -/
def Walk.bounds (w : Walk) : Nat × Option Nat := (w.rest.length, some w.rest.length)

/-! ## What a change does to the levels -/

theorem find?_remove (b : Ladder side) (gone price : Price) :
    (b.remove gone).find? price = if gone = price then none else b.find? price := by
  simp [remove, find?, Std.TreeMap.getElem?_erase]

/-- A level put on a side is seen at its price, where a quantity that is not positive leaves
nothing; the other prices keep their levels. -/
theorem find?_put (b : Ladder side) (level : Level) (price : Price) :
    (b.put level).find? price =
      if level.price = price then (if level.quantity.IsPositive then some level else none)
      else b.find? price := by
  unfold put
  split
  · simp [find?, Std.TreeMap.getElem?_insert]
  · rw [find?_remove]

/-! ## The list of levels -/

@[simp]
theorem length_levels (b : Ladder side) : b.levels.length = b.size := by
  simp [levels, size, Std.TreeMap.length_toList]

theorem best?_eq_head?_levels (b : Ladder side) : b.best? = b.levels.head? := by
  have hkeys : b.byPrice.keys = b.byPrice.toList.map Prod.fst :=
    Std.TreeMap.map_fst_toList_eq_keys.symm
  rw [best?, Std.TreeMap.minKey?_eq_head?_keys, hkeys, levels, List.head?_map, List.head?_map]
  cases h : b.byPrice.toList.head? with
  | none => rfl
  | some entry =>
    have hmem : (entry.1, entry.2) ∈ b.byPrice.toList := List.mem_of_head? h
    exact Std.TreeMap.mem_toList_iff_getElem?_eq_some.1 hmem

theorem top_eq_take_levels (b : Ladder side) (n : Nat) : b.top n = b.levels.take n := by
  simp [top, levels, Std.Iter.toList_take_of_finite, List.map_take]

/-- The prices of the levels go from better to worse. -/
theorem WellFormed.ordered {b : Ladder side} (h : b.WellFormed) :
    b.levels.Pairwise fun k l => side.IsBetter k.price l.price := by
  rw [levels, List.pairwise_map]
  refine List.Pairwise.imp_of_mem ?_ Std.TreeMap.ordered_keys_toList
  intro k l hk hl hlt
  have hprice : ∀ entry ∈ b.byPrice.toList, entry.2.price = entry.1 := fun entry hentry =>
    h.price_eq (Std.TreeMap.mem_toList_iff_getElem?_eq_some.1 hentry)
  rw [hprice k hk, hprice l hl]
  exact (side.priority_eq_lt_iff k.1 l.1).1 hlt

end Ladder

end DepthFeed

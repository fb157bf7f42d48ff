import DepthFeed.Book.Basic

/-!
# Well-formed books

Every level of a well-formed book stands at its own price and holds a positive quantity. All that
changes a ladder or a book keeps it well-formed.

* `Ladder.find?_hit`: what a trade leaves at its price and elsewhere.
* `Ladder.WellFormed.put`, `Ladder.WellFormed.hit`, `Ladder.WellFormed.run`: the changes of one side,
  and a list of them.
* `Book.WellFormed.take`, `Book.WellFormed.run`: an operation, and a list of them.
-/

namespace DepthFeed

/-! ## One side -/

namespace Ladder

variable {side : Side} {b : Ladder side}

@[simp]
theorem find?_empty (price : Price) : (empty : Ladder side).find? price = none := by
  simp [empty, find?]

theorem WellFormed.empty : (Ladder.empty : Ladder side).WellFormed where
  price_eq h := by simp at h
  positive h := by simp at h

theorem WellFormed.put (h : b.WellFormed) (level : Level) : (b.put level).WellFormed := by
  have hcases : ∀ {price found}, (b.put level).find? price = some found →
      (found = level ∧ level.price = price ∧ level.quantity.IsPositive) ∨
        b.find? price = some found := by
    intro price found hfound
    rw [find?_put] at hfound
    split at hfound
    · rename_i hprice
      split at hfound
      · rename_i hpositive
        cases hfound
        exact Or.inl ⟨rfl, hprice, hpositive⟩
      · cases hfound
    · exact Or.inr hfound
  constructor
  · intro price found hfound
    rcases hcases hfound with ⟨rfl, hprice, -⟩ | hold
    · exact hprice
    · exact h.price_eq hold
  · intro price found hfound
    rcases hcases hfound with ⟨rfl, -, hpositive⟩ | hold
    · exact hpositive
    · exact h.positive hold

theorem WellFormed.hit (h : b.WellFormed) (price : Price) (traded : Quantity)
    (sequence timestamp : Int64) : (b.hit price traded sequence timestamp).2.WellFormed := by
  unfold Ladder.hit
  split
  · exact h
  · exact h.put _

/-- A trade is seen at its price only, where the level that rested there keeps its order count. -/
theorem find?_hit (h : b.WellFormed) (hitPrice price : Price) (traded : Quantity)
    (sequence timestamp : Int64) :
    (b.hit hitPrice traded sequence timestamp).2.find? price =
      if hitPrice = price then
        (b.find? price).bind fun level =>
          if (level.quantity.subClamped traded).IsPositive then
            some { level with
              quantity := level.quantity.subClamped traded
              sequence := sequence
              timestamp := timestamp }
          else none
      else b.find? price := by
  unfold hit
  split
  · rename_i hnone
    split
    · rename_i heq
      rw [← heq, hnone]
      rfl
    · rfl
  · rename_i level hsome
    rw [find?_put]
    dsimp only
    rw [h.price_eq hsome]
    split
    · rename_i heq
      rw [← heq, hsome, ← h.price_eq hsome]
      rfl
    · rfl

/-! ### Runs -/

/-- An operation on one side. -/
inductive Change where
  | put (level : Level)
  | hit (price : Price) (traded : Quantity) (sequence timestamp : Int64)
  | clear
deriving DecidableEq, Repr

def take (b : Ladder side) : Change → Ladder side
  | .put level => b.put level
  | .hit price traded sequence timestamp => (b.hit price traded sequence timestamp).2
  | .clear => .empty

def run (b : Ladder side) (changes : List Change) : Ladder side := changes.foldl take b

theorem WellFormed.take (h : b.WellFormed) (c : Change) : (b.take c).WellFormed := by
  cases c with
  | put level => exact h.put level
  | hit price traded sequence timestamp => exact h.hit price traded sequence timestamp
  | clear => exact WellFormed.empty

/-- Every run keeps a side well-formed. -/
theorem WellFormed.run (h : b.WellFormed) (changes : List Change) : (b.run changes).WellFormed := by
  induction changes generalizing b with
  | nil => exact h
  | cons c changes ih => exact ih (h.take c)

end Ladder

/-! ## Both sides -/

namespace Book

variable {b : Book}

def WellFormed (b : Book) : Prop := ∀ side, (b.ladder side).WellFormed

@[simp]
theorem ladder_setLadder (b : Book) (side : Side) (ladder : Ladder side) :
    (b.setLadder side ladder).ladder side = ladder := by
  cases side <;> rfl

theorem ladder_setLadder_of_ne (b : Book) {side other : Side} (h : side ≠ other)
    (ladder : Ladder side) : (b.setLadder side ladder).ladder other = b.ladder other := by
  cases side <;> cases other <;> first | rfl | exact absurd rfl h

theorem WellFormed.setLadder (h : b.WellFormed) {side : Side} {ladder : Ladder side}
    (hladder : ladder.WellFormed) : (b.setLadder side ladder).WellFormed := by
  intro other
  by_cases heq : side = other
  · subst heq
    rwa [ladder_setLadder]
  · rw [ladder_setLadder_of_ne b heq]
    exact h other

theorem wellFormed_empty (instrument : Instrument) (tradeRule : TradeRule) :
    (empty instrument tradeRule).WellFormed := by
  intro side
  cases side <;> exact Ladder.WellFormed.empty

theorem wellFormed_clear (b : Book) : b.clear.WellFormed := by
  intro side
  cases side <;> exact Ladder.WellFormed.empty

theorem WellFormed.put (h : b.WellFormed) (side : Side) (level : Level) :
    (b.put side level).WellFormed := h.setLadder ((h side).put level)

theorem WellFormed.trade (h : b.WellFormed) (e : Event) : (b.trade e).WellFormed := by
  have hcounted : WellFormed { b with trades := b.trades + 1 } := fun side => by
    cases side <;> exact h _
  unfold Book.trade
  dsimp only
  split
  · exact hcounted
  · exact hcounted.setLadder ((hcounted _).hit ..)

theorem WellFormed.stamp (h : b.WellFormed) (sequence timestamp : Int64) :
    (b.stamp sequence timestamp).WellFormed := fun side => by
  cases side <;> exact h _

theorem WellFormed.change (h : b.WellFormed) (e : Event) : (b.change e).WellFormed := by
  unfold Book.change
  split
  · exact h.put e.side e.level
  · exact h.trade e
  · exact (wellFormed_clear b).put e.side e.level

theorem wellFormed_foldl_put {side : Side} {entries : List (Price × Quantity)}
    (image : Image) {ladder : Ladder side} (h : ladder.WellFormed) :
    (entries.foldl (fun s entry => s.put (imageLevel image entry)) ladder).WellFormed := by
  induction entries generalizing ladder with
  | nil => exact h
  | cons entry entries ih => exact ih (h.put _)

theorem wellFormed_load (b : Book) (image : Image) : (b.load image).WellFormed := fun side => by
  cases side <;> exact wellFormed_foldl_put image Ladder.WellFormed.empty

theorem take_event {e : Event} (h : e.instrument = b.instrument) :
    b.take (.event e) = (b.change e).stamp e.sequence e.timestamp := by
  rw [take, apply, if_pos h]
  rfl

theorem take_foreign {e : Event} (h : e.instrument ≠ b.instrument) : b.take (.event e) = b := by
  rw [take, apply, if_neg h]
  rfl

theorem WellFormed.take (h : b.WellFormed) (c : Change) : (b.take c).WellFormed := by
  cases c with
  | event e =>
    by_cases he : e.instrument = b.instrument
    · rw [take_event he]
      exact (h.change e).stamp e.sequence e.timestamp
    · rwa [take_foreign he]
  | image i => exact wellFormed_load b i

/-- Every run keeps a book well-formed. -/
theorem WellFormed.run (h : b.WellFormed) (changes : List Change) : (b.run changes).WellFormed := by
  induction changes generalizing b with
  | nil => exact h
  | cons c changes ih => exact ih (h.take c)

end Book

end DepthFeed

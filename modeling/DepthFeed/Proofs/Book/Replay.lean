import Mathlib.Data.List.Induction
import DepthFeed.Proofs.Book.WellFormed

/-!
# A level by the operations addressed to it

A run of operations can be read off price by price. Of all operations, those after the last one that
clears the book count, and of these the touches of one price of one side.

* `Touch`: an operation at one price of one side sets the level or takes from it.
* `Change.touches`: the touches of a price that an operation contains. A trade touches the side
  opposite its aggressor, and only if it takes from resting levels.
* `replayAt`: the level that the touches of a price leave.
* `find?_run_eq_replayAt`: a book that follows a run has just these levels.
-/

namespace DepthFeed

def Image.entries (i : Image) : Side → List (Price × Quantity)
  | .buy => i.bids
  | .sell => i.asks

namespace Book

/-! ## Touches of one price -/

/-- What an operation does at one price of one side. -/
inductive Touch where
  | set (level : Level)
  /-- A trade takes from the level, if there is one. -/
  | take (traded : Quantity) (sequence timestamp : Int64)
deriving DecidableEq, Repr

/-- A level where something is left of it. -/
def remaining (level : Level) : Option Level :=
  if level.quantity.IsPositive then some level else none

def Touch.apply (resting : Option Level) : Touch → Option Level
  | set level => remaining level
  | take traded sequence timestamp =>
    resting.bind fun level =>
      remaining { level with
        quantity := level.quantity.subClamped traded
        sequence := sequence
        timestamp := timestamp }

namespace Change

def IsFor (instrument : Instrument) : Change → Prop
  | event e => e.instrument = instrument
  | image _ => True

instance (instrument : Instrument) (c : Change) : Decidable (c.IsFor instrument) := by
  cases c <;> unfold IsFor <;> infer_instance

/-- Whether the operation starts the book anew, before its own entries are set. -/
def Clears : Change → Prop
  | event e => e.kind = .snapshot
  | image _ => True

instance (c : Change) : Decidable c.Clears := by
  cases c <;> unfold Clears <;> infer_instance

def touches (tradeRule : TradeRule) (side : Side) (price : Price) : Change → List Touch
  | event e =>
    match e.kind with
    | .update | .snapshot => if e.side = side ∧ e.price = price then [.set e.level] else []
    | .trade =>
      if tradeRule = .takeResting ∧ e.side.opposite = side ∧ e.price = price then
        [.take e.quantity e.sequence e.timestamp]
      else []
  | image i =>
    ((i.entries side).filter fun entry => entry.1 = price).map fun entry =>
      .set (imageLevel i entry)

end Change

/-- The operations from the last one on that clears the book. -/
def sinceClear : List Change → List Change
  | [] => []
  | c :: changes => if ∃ later ∈ changes, later.Clears then sinceClear changes else c :: changes

def accepted (instrument : Instrument) (changes : List Change) : List Change :=
  changes.filter fun c => c.IsFor instrument

/-- The level that the accepted operations leave at `price` on `side`. -/
def replayAt (instrument : Instrument) (tradeRule : TradeRule) (side : Side) (price : Price)
    (changes : List Change) : Option Level :=
  ((sinceClear (accepted instrument changes)).flatMap
    (Change.touches tradeRule side price)).foldl Touch.apply none

theorem sinceClear_append_singleton (changes : List Change) (c : Change) :
    sinceClear (changes ++ [c]) = if c.Clears then [c] else sinceClear changes ++ [c] := by
  induction changes with
  | nil => simp [sinceClear]
  | cons d changes ih =>
    rw [List.cons_append, sinceClear, sinceClear, ih]
    by_cases hc : c.Clears
    · simp [hc]
    · by_cases hlater : ∃ later ∈ changes, later.Clears
      · have happend : ∃ later ∈ changes ++ [c], later.Clears := by
          obtain ⟨later, hmem, hclears⟩ := hlater
          exact ⟨later, List.mem_append_left _ hmem, hclears⟩
        rw [if_pos happend, if_neg hc, if_neg hc, if_pos hlater]
      · have happend : ¬ ∃ later ∈ changes ++ [c], later.Clears := by
          simp only [List.mem_append, List.mem_singleton, not_exists, not_and] at hlater ⊢
          rintro later (hmem | rfl)
          · exact hlater later hmem
          · exact hc
        rw [if_neg happend, if_neg hc, if_neg hlater, List.cons_append]

/-! ## One operation -/

variable {b : Book} {side : Side} {price : Price}

@[simp]
theorem ladder_stamp (b : Book) (sequence timestamp : Int64) (side : Side) :
    (b.stamp sequence timestamp).ladder side = b.ladder side := by
  cases side <;> rfl

@[simp]
theorem find?_clear (b : Book) : (b.clear.ladder side).find? price = none := by
  cases side <;> exact Ladder.find?_empty price

theorem find?_put (b : Book) (target : Side) (level : Level) :
    ((b.put target level).ladder side).find? price =
      if target = side ∧ level.price = price then remaining level
      else (b.ladder side).find? price := by
  by_cases hside : target = side
  · subst hside
    rw [put, ladder_setLadder, Ladder.find?_put]
    simp [remaining]
  · rw [put, ladder_setLadder_of_ne b hside]
    simp [hside]

theorem find?_trade (h : b.WellFormed) (e : Event) :
    ((b.trade e).ladder side).find? price =
      if b.tradeRule = .takeResting ∧ e.side.opposite = side ∧ e.price = price then
        Touch.apply ((b.ladder side).find? price) (.take e.quantity e.sequence e.timestamp)
      else (b.ladder side).find? price := by
  have hcounted : ∀ s, Book.ladder { b with trades := b.trades + 1 } s = b.ladder s := fun s => by
    cases s <;> rfl
  unfold trade
  dsimp only
  split
  · rename_i hrule
    rw [hcounted]
    simp [hrule]
  · rename_i hrule
    by_cases hside : e.side.opposite = side
    · subst hside
      rw [ladder_setLadder, hcounted, Ladder.find?_hit (h _)]
      simp [hrule, Touch.apply, remaining]
    · rw [ladder_setLadder_of_ne _ hside, hcounted]
      simp [hside]

/-- Loading the entries of one side sets the level at a price once for each of its entries. -/
theorem find?_foldl_put (image : Image) (entries : List (Price × Quantity)) (ladder : Ladder side) :
    (entries.foldl (fun s entry => s.put (imageLevel image entry)) ladder).find? price =
      ((entries.filter fun entry => entry.1 = price).map fun entry =>
        Touch.set (imageLevel image entry)).foldl Touch.apply (ladder.find? price) := by
  induction entries generalizing ladder with
  | nil => rfl
  | cons entry entries ih =>
    rw [List.foldl_cons, ih, Ladder.find?_put]
    by_cases hprice : entry.1 = price
    · simp [hprice, imageLevel, Touch.apply, remaining]
    · simp [hprice, imageLevel]

theorem find?_load (b : Book) (image : Image) :
    ((b.load image).ladder side).find? price =
      ((Change.image image).touches b.tradeRule side price).foldl Touch.apply none := by
  have hempty : (Ladder.empty : Ladder side).find? price = none := Ladder.find?_empty price
  rw [Change.touches, ← hempty, ← find?_foldl_put]
  cases side <;> rfl

/-- An accepted operation acts on the level at a price through its touches of it. -/
theorem find?_take (h : b.WellFormed) {c : Change} (hfor : c.IsFor b.instrument) :
    ((b.take c).ladder side).find? price =
      (c.touches b.tradeRule side price).foldl Touch.apply
        (if c.Clears then none else (b.ladder side).find? price) := by
  cases c with
  | image i => exact find?_load b i
  | event e =>
    rw [take_event hfor, ladder_stamp, change]
    have hprice : e.level.price = e.price := rfl
    cases hkind : e.kind with
    | update =>
      simp only [find?_put, Change.touches, Change.Clears, hkind, hprice]
      split <;> rfl
    | trade =>
      simp only [find?_trade h, Change.touches, Change.Clears, hkind]
      split <;> rfl
    | snapshot =>
      simp only [find?_put, find?_clear, Change.touches, Change.Clears, hkind, hprice]
      split <;> rfl

theorem take_of_not_isFor {c : Change} (h : ¬ c.IsFor b.instrument) : b.take c = b := by
  cases c with
  | image i => exact absurd trivial h
  | event e => exact take_foreign h

/-! ## Runs -/

@[simp]
theorem instrument_setLadder (b : Book) (side : Side) (ladder : Ladder side) :
    (b.setLadder side ladder).instrument = b.instrument := by
  cases side <;> rfl

@[simp]
theorem tradeRule_setLadder (b : Book) (side : Side) (ladder : Ladder side) :
    (b.setLadder side ladder).tradeRule = b.tradeRule := by
  cases side <;> rfl

theorem change_keeps (b : Book) (e : Event) :
    (b.change e).instrument = b.instrument ∧ (b.change e).tradeRule = b.tradeRule := by
  unfold change trade put
  cases e.kind with
  | update => simp
  | snapshot => simp [clear]
  | trade =>
    dsimp only
    split <;> simp

/-- No operation changes the instrument of a book or what its trades do. -/
theorem take_keeps (b : Book) (c : Change) :
    (b.take c).instrument = b.instrument ∧ (b.take c).tradeRule = b.tradeRule := by
  cases c with
  | image i => exact ⟨rfl, rfl⟩
  | event e =>
    by_cases he : e.instrument = b.instrument
    · rw [take_event he]
      exact change_keeps b e
    · rw [take_foreign he]
      exact ⟨rfl, rfl⟩

theorem run_keeps (b : Book) (changes : List Change) :
    (b.run changes).instrument = b.instrument ∧ (b.run changes).tradeRule = b.tradeRule := by
  induction changes generalizing b with
  | nil => exact ⟨rfl, rfl⟩
  | cons c changes ih =>
    obtain ⟨hinstrument, hrule⟩ := take_keeps b c
    exact ⟨(ih _).1.trans hinstrument, (ih _).2.trans hrule⟩

theorem run_append_singleton (b : Book) (changes : List Change) (c : Change) :
    b.run (changes ++ [c]) = (b.run changes).take c := by
  rw [run, List.foldl_append]
  rfl

/-- After any run, the level at each price of each side is the one that the accepted operations
addressed to it leave, from the last one on that cleared the book. -/
theorem find?_run_eq_replayAt (instrument : Instrument) (tradeRule : TradeRule)
    (changes : List Change) (side : Side) (price : Price) :
    (((empty instrument tradeRule).run changes).ladder side).find? price =
      replayAt instrument tradeRule side price changes := by
  induction changes using List.reverseRecOn with
  | nil =>
    cases side <;> exact Ladder.find?_empty price
  | append_singleton changes c ih =>
    obtain ⟨hinstrument, hrule⟩ := run_keeps (empty instrument tradeRule) changes
    have hwell := (wellFormed_empty instrument tradeRule).run changes
    rw [run_append_singleton]
    unfold replayAt accepted at ih ⊢
    rw [List.filter_append]
    by_cases hfor : c.IsFor instrument
    · have hfilter : [c].filter (fun c => c.IsFor instrument) = [c] := by simp [hfor]
      rw [find?_take hwell (hinstrument ▸ hfor), hrule, ih, hfilter, sinceClear_append_singleton]
      split
      · rw [List.flatMap_singleton]
        rfl
      · rw [List.flatMap_append, List.foldl_append, List.flatMap_singleton]
        rfl
    · have hfilter : [c].filter (fun c => c.IsFor instrument) = [] := by simp [hfor]
      rw [take_of_not_isFor (hinstrument ▸ hfor), ih, hfilter, List.append_nil]

end Book

end DepthFeed

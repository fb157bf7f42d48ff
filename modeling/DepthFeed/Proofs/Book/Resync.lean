import DepthFeed.Book.Queries
import DepthFeed.Proofs.Book.Replay

/-!
# Two ways to start a book anew

A book can take an image as a whole, or as events: a snapshot event for the first entry and an
update for each other one. Whatever the books held before, both ways lead to books that differ in
no more than how many operations they counted, and such books answer alike from then on.

* `Image.events`: an image as events.
* `Book.SameButCounts`: the books that differ in no more than their counts of operations.
* `Book.SameButCounts.run`: the same operations keep books so.
* `Book.sameAnswers_run_image_run_events`: books that were started anew in the two ways answer alike.
-/

namespace DepthFeed

/-! ## Images as events -/

namespace Image

/-- The entries, bids first, each with its side. -/
def placed (i : Image) : List (Side × Price × Quantity) :=
  i.bids.map (Side.buy, ·) ++ i.asks.map (Side.sell, ·)

/-- An entry as an event. -/
def event (i : Image) (stream : StreamId) (kind : Event.Kind) (entry : Side × Price × Quantity) :
    Event where
  sequence := i.sequence
  timestamp := i.timestamp
  side := entry.1
  price := entry.2.1
  quantity := entry.2.2
  kind := kind
  instrument := stream.instrument
  exchange := stream.exchange
  orders := none

/-- The entries as events, of which the first one starts the book anew. -/
def events (i : Image) (stream : StreamId) : List Event :=
  match i.placed with
  | [] => []
  | first :: rest => i.event stream .snapshot first :: rest.map (i.event stream .update)

end Image

namespace Book

variable {b b' : Book}

/-! ## Books that differ in their counts -/

theorem trade_of_countOnly (h : b.tradeRule = .countOnly) (e : Event) :
    b.trade e = { b with trades := b.trades + 1 } := by
  unfold trade
  dsimp only
  split
  · rfl
  · rename_i hrule
    cases h.symm.trans hrule

theorem trade_of_takeResting (h : b.tradeRule = .takeResting) (e : Event) :
    b.trade e =
      setLadder { b with trades := b.trades + 1 } e.side.opposite
        ((ladder { b with trades := b.trades + 1 } e.side.opposite).hit e.price e.quantity
          e.sequence e.timestamp).2 := by
  unfold trade
  dsimp only
  split
  · rename_i hrule
    cases h.symm.trans hrule
  · rfl

/-- Books that differ in no more than how many operations and trades they counted. -/
structure SameButCounts (b b' : Book) : Prop where
  instrument_eq : b.instrument = b'.instrument
  tradeRule_eq : b.tradeRule = b'.tradeRule
  bids_eq : b.bids = b'.bids
  asks_eq : b.asks = b'.asks
  phase_eq : b.phase = b'.phase
  sequence_eq : b.sequence = b'.sequence
  timestamp_eq : b.timestamp = b'.timestamp

namespace SameButCounts

theorem refl (b : Book) : b.SameButCounts b := ⟨rfl, rfl, rfl, rfl, rfl, rfl, rfl⟩

theorem trans {b'' : Book} (h : b.SameButCounts b') (h' : b'.SameButCounts b'') :
    b.SameButCounts b'' where
  instrument_eq := h.instrument_eq.trans h'.instrument_eq
  tradeRule_eq := h.tradeRule_eq.trans h'.tradeRule_eq
  bids_eq := h.bids_eq.trans h'.bids_eq
  asks_eq := h.asks_eq.trans h'.asks_eq
  phase_eq := h.phase_eq.trans h'.phase_eq
  sequence_eq := h.sequence_eq.trans h'.sequence_eq
  timestamp_eq := h.timestamp_eq.trans h'.timestamp_eq

theorem ladder_eq (h : b.SameButCounts b') (side : Side) : b.ladder side = b'.ladder side := by
  cases side
  · exact h.bids_eq
  · exact h.asks_eq

theorem setLadder (h : b.SameButCounts b') (side : Side) (ladder : Ladder side) :
    (b.setLadder side ladder).SameButCounts (b'.setLadder side ladder) := by
  cases side
  · exact { h with bids_eq := rfl }
  · exact { h with asks_eq := rfl }

theorem put (h : b.SameButCounts b') (side : Side) (level : Level) :
    (b.put side level).SameButCounts (b'.put side level) := by
  rw [Book.put, Book.put, h.ladder_eq side]
  exact h.setLadder side _

theorem clear (h : b.SameButCounts b') : b.clear.SameButCounts b'.clear :=
  { h with bids_eq := rfl, asks_eq := rfl }

theorem trade (h : b.SameButCounts b') (e : Event) :
    (b.trade e).SameButCounts (b'.trade e) := by
  have hcounted : SameButCounts { b with trades := b.trades + 1 }
      { b' with trades := b'.trades + 1 } := { h with }
  cases hrule : b.tradeRule with
  | countOnly =>
    rw [trade_of_countOnly hrule, trade_of_countOnly (h.tradeRule_eq ▸ hrule)]
    exact hcounted
  | takeResting =>
    rw [trade_of_takeResting hrule, trade_of_takeResting (h.tradeRule_eq ▸ hrule),
      hcounted.ladder_eq]
    exact hcounted.setLadder _ _

theorem change (h : b.SameButCounts b') (e : Event) :
    (b.change e).SameButCounts (b'.change e) := by
  unfold Book.change
  cases e.kind with
  | update => exact h.put e.side e.level
  | trade => exact h.trade e
  | snapshot => exact h.clear.put e.side e.level

theorem stamp (h : b.SameButCounts b') (sequence timestamp : Int64) :
    (b.stamp sequence timestamp).SameButCounts (b'.stamp sequence timestamp) :=
  { h with phase_eq := rfl, sequence_eq := rfl, timestamp_eq := rfl }

theorem load (hinstrument : b.instrument = b'.instrument) (hrule : b.tradeRule = b'.tradeRule)
    (image : Image) : (b.load image).SameButCounts (b'.load image) :=
  ⟨hinstrument, hrule, rfl, rfl, rfl, rfl, rfl⟩

theorem take (h : b.SameButCounts b') (c : Change) : (b.take c).SameButCounts (b'.take c) := by
  cases c with
  | image i => exact load h.instrument_eq h.tradeRule_eq i
  | event e =>
    by_cases he : e.instrument = b.instrument
    · rw [take_event he, take_event (he.trans h.instrument_eq)]
      exact (h.change e).stamp e.sequence e.timestamp
    · rw [take_foreign he, take_foreign (h.instrument_eq ▸ he)]
      exact h

/-- The same operations keep books alike. -/
theorem run (h : b.SameButCounts b') (changes : List Change) :
    (b.run changes).SameButCounts (b'.run changes) := by
  induction changes generalizing b b' with
  | nil => exact h
  | cons c changes ih => exact ih (h.take c)

end SameButCounts

/-! ## What the books answer -/

/-- Books of the same levels and stamps, which answer every question alike. -/
structure SameAnswers (b b' : Book) : Prop where
  levels_eq (side : Side) : (b.ladder side).levels = (b'.ladder side).levels
  sequence_eq : b.sequence = b'.sequence
  timestamp_eq : b.timestamp = b'.timestamp
  phase_eq : b.phase = b'.phase
  find?_eq (side : Side) (price : Price) :
    (b.ladder side).find? price = (b'.ladder side).find? price
  rank?_eq (side : Side) (i : Nat) : (b.ladder side).rank? i = (b'.ladder side).rank? i
  best_eq (side : Side) : b.best side = b'.best side
  top_eq (side : Side) (n : Nat) : (b.ladder side).top n = (b'.ladder side).top n
  depth_eq (side : Side) (n : Nat) : (b.ladder side).depth n = (b'.ladder side).depth n
  atOrBetter_eq (side : Side) (limit : Price) :
    (b.ladder side).atOrBetter limit = (b'.ladder side).atOrBetter limit
  mid_eq : b.mid = b'.mid
  spread_eq : b.spread = b'.spread
  isCrossed_eq : b.isCrossed = b'.isCrossed
  imbalance_eq (n : Nat) : b.imbalance n = b'.imbalance n
  snapshot_eq (n : Nat) : b.snapshot n = b'.snapshot n

theorem SameButCounts.sameAnswers (h : b.SameButCounts b') : b.SameAnswers b' := by
  have hinside : b.inside? = b'.inside? := by rw [inside?, inside?, h.bids_eq, h.asks_eq]
  constructor
  · intro side
    rw [h.ladder_eq side]
  · exact h.sequence_eq
  · exact h.timestamp_eq
  · exact h.phase_eq
  · intro side price
    rw [h.ladder_eq side]
  · intro side i
    rw [h.ladder_eq side]
  · intro side
    rw [best, best, h.ladder_eq side]
  · intro side n
    rw [h.ladder_eq side]
  · intro side n
    rw [h.ladder_eq side]
  · intro side limit
    rw [h.ladder_eq side]
  · rw [mid, mid, hinside]
  · rw [spread, spread, hinside]
  · rw [isCrossed, isCrossed, hinside]
  · intro n
    rw [imbalance, imbalance, h.bids_eq, h.asks_eq]
  · intro n
    rw [snapshot, snapshot, h.instrument_eq, h.sequence_eq, h.timestamp_eq, h.bids_eq, h.asks_eq]

/-! ## Loading -/

/-- The book with some entries of an image set in their order. -/
def putAll (b : Book) (image : Image) (entries : List (Side × Price × Quantity)) : Book :=
  entries.foldl (fun b entry => b.put entry.1 (imageLevel image entry.2)) b

theorem putAll_append (b : Book) (image : Image) (earlier later : List (Side × Price × Quantity)) :
    b.putAll image (earlier ++ later) = (b.putAll image earlier).putAll image later :=
  List.foldl_append

/-- Entries of one side change that side alone. -/
theorem putAll_map (b : Book) (image : Image) (side : Side) (entries : List (Price × Quantity)) :
    b.putAll image (entries.map (side, ·)) =
      b.setLadder side
        (entries.foldl (fun s entry => s.put (imageLevel image entry)) (b.ladder side)) := by
  induction entries generalizing b with
  | nil => cases side <;> rfl
  | cons entry entries ih =>
    have hput : b.putAll image ((entry :: entries).map (side, ·)) =
        (b.put side (imageLevel image entry)).putAll image (entries.map (side, ·)) := rfl
    rw [hput, ih, List.foldl_cons]
    cases side <;> rfl

theorem load_eq_putAll (b : Book) (image : Image) :
    b.load image = (b.clear.putAll image image.placed).stamp image.sequence image.timestamp := by
  rw [Image.placed, putAll_append, putAll_map, putAll_map]
  rfl

theorem take_image_event {stream : StreamId} (hinstrument : b.instrument = stream.instrument)
    (image : Image) (kind : Event.Kind) (entry : Side × Price × Quantity) :
    b.take (.event (image.event stream kind entry)) =
      (b.change (image.event stream kind entry)).stamp image.sequence image.timestamp :=
  take_event hinstrument.symm

/-- Entries that come as updates are set one by one, each with the stamp of the image. -/
theorem putAll_sameButCounts_run {stream : StreamId} (hinstrument : b.instrument = stream.instrument)
    (image : Image) (entries : List (Side × Price × Quantity)) :
    ((b.putAll image entries).stamp image.sequence image.timestamp).SameButCounts
      ((b.stamp image.sequence image.timestamp).run
        (entries.map fun entry => .event (image.event stream .update entry))) := by
  induction entries generalizing b with
  | nil => exact .refl _
  | cons entry entries ih =>
    have hput : (b.put entry.1 (imageLevel image entry.2)).instrument = stream.instrument := by
      rw [← hinstrument]
      cases entry.1 <;> rfl
    have hstep : SameButCounts
        ((b.put entry.1 (imageLevel image entry.2)).stamp image.sequence image.timestamp)
        ((b.stamp image.sequence image.timestamp).take
          (.event (image.event stream .update entry))) := by
      rw [take_image_event (b := b.stamp _ _) hinstrument]
      obtain ⟨side, price, quantity⟩ := entry
      cases side <;> exact ⟨rfl, rfl, rfl, rfl, rfl, rfl, rfl⟩
    exact (ih hput).trans (hstep.run _)

/-- An image leaves the same book as the events of it, whatever was there before. -/
theorem load_sameButCounts_run_events {stream : StreamId} {image : Image}
    (hinstrument : b.instrument = stream.instrument)
    (hinstrument' : b'.instrument = stream.instrument) (hrule : b.tradeRule = b'.tradeRule)
    (hplaced : image.placed ≠ []) :
    (b.load image).SameButCounts (b'.run ((image.events stream).map .event)) := by
  obtain ⟨first, rest, hsplit⟩ := List.exists_cons_of_ne_nil hplaced
  have hload : (b.load image).SameButCounts (b'.load image) :=
    .load (hinstrument.trans hinstrument'.symm) hrule image
  have hfirst : (b'.clear.put first.1 (imageLevel image first.2)).instrument =
      stream.instrument := by
    rw [← hinstrument']
    cases first.1 <;> rfl
  have hrest := putAll_sameButCounts_run hfirst image rest
  rw [Image.events, hsplit]
  rw [load_eq_putAll b', hsplit] at hload
  refine hload.trans (hrest.trans ?_)
  have hevents : b'.run ((image.event stream .snapshot first ::
      rest.map (image.event stream .update)).map .event) =
        (b'.take (.event (image.event stream .snapshot first))).run
          (rest.map fun entry => .event (image.event stream .update entry)) := by
    rw [List.map_cons, List.map_map]
    rfl
  rw [hevents, take_image_event hinstrument']
  exact .refl _

/-- Two books of one instrument and trade rule, whatever they held, answer alike from the moment on
at which the one took an image and the other one the events of it. -/
theorem sameAnswers_run_image_run_events {stream : StreamId} {image : Image}
    (hinstrument : b.instrument = stream.instrument)
    (hinstrument' : b'.instrument = stream.instrument) (hrule : b.tradeRule = b'.tradeRule)
    (hentries : image.bids ≠ [] ∨ image.asks ≠ []) (later : List Change) :
    (b.run (.image image :: later)).SameAnswers
      (b'.run ((image.events stream).map .event ++ later)) := by
  have hplaced : image.placed ≠ [] := by
    intro hnone
    rw [Image.placed, List.append_eq_nil_iff, List.map_eq_nil_iff, List.map_eq_nil_iff] at hnone
    exact hentries.elim (absurd hnone.1) (absurd hnone.2)
  have hloaded := load_sameButCounts_run_events hinstrument hinstrument' hrule hplaced
  have hevents : b'.run ((image.events stream).map .event ++ later) =
      (b'.run ((image.events stream).map .event)).run later := List.foldl_append
  rw [hevents]
  exact (hloaded.run later).sameAnswers

/-- An image with a price that comes twice and entries of no quantity, on a new book and on a used
one, followed by a sale. -/
theorem sameAnswers_run_image_sale :
    let stream : StreamId := ⟨⟨1⟩, ⟨7⟩⟩
    let image : Image :=
      ⟨9, 90, [(⟨100⟩, ⟨5⟩), (⟨101⟩, ⟨0⟩), (⟨100⟩, ⟨3⟩)], [(⟨102⟩, ⟨4⟩), (⟨103⟩, ⟨-1⟩)]⟩
    let bid : Event := ⟨4, 40, .buy, ⟨99⟩, ⟨8⟩, .update, ⟨7⟩, ⟨1⟩, some 2⟩
    let sale : Event := ⟨10, 95, .sell, ⟨100⟩, ⟨1⟩, .trade, ⟨7⟩, ⟨1⟩, none⟩
    let new := Book.empty ⟨7⟩ .takeResting
    let used := new.run [.event bid, .event sale]
    (new.run [.image image, .event sale]).bids.levels = [⟨⟨100⟩, ⟨2⟩, 10, 95, none⟩] ∧
      (new.run (.image image :: [.event sale])).SameAnswers
        (used.run ((image.events stream).map .event ++ [.event sale])) ∧
      (used.run (.image image :: [.event sale])).SameAnswers
        (new.run ((image.events stream).map .event ++ [.event sale])) := by
  intro stream image bid sale new used
  obtain ⟨hinstrument, hrule⟩ := run_keeps new [.event bid, .event sale]
  have hentries : image.bids ≠ [] ∨ image.asks ≠ [] := Or.inl (List.cons_ne_nil _ _)
  refine ⟨by decide, ?_, ?_⟩
  · exact sameAnswers_run_image_run_events rfl hinstrument hrule.symm hentries _
  · exact sameAnswers_run_image_run_events hinstrument rfl hrule hentries _

end Book

end DepthFeed

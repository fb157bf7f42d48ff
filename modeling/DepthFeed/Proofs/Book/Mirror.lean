import DepthFeed.Book.Queries
import DepthFeed.Proofs.Book.Accounts
import DepthFeed.Proofs.Book.Resync
import DepthFeed.Proofs.Decimal.Negation

/-!
# The mirror of a book

Bids descend and asks ascend, and otherwise the two sides are alike. So a book that follows mirrored
operations, with the sides exchanged and every price turned around, is the mirror of the book that
follows the operations themselves.

* `Ticks.mirror`, `Event.mirror`, `Image.mirror`, `Book.Change.mirror`: what is turned around.
* `Ladder.Mirrors`: a side whose levels are those of an opposite side, turned around.
* `Book.Mirrors`, `Book.Mirrors.run`: a book whose sides are, kept by every run.
* `Book.MirrorAnswers`, `Book.mirrorAnswers_run`: what a book and its mirror answer.
-/

namespace DepthFeed

/-! ## Turning around -/

/-- The amount of `-1 - n` ticks for one of `n`, which exchanges both ends of the tick counts. -/
def Ticks.mirror {m : Measure} (a : Ticks m) : Ticks m := ⟨~~~a.count⟩

namespace Ticks

variable {m : Measure}

theorem toInt_mirror (a : Ticks m) : a.mirror.count.toInt = -1 - a.count.toInt := by
  have hlow := a.count.le_toInt
  have hhigh := a.count.toInt_lt
  rw [mirror, Int64.toInt_not, Int.bmod_eq_of_le (by omega) (by omega)]
  omega

theorem mirror_le_mirror {a b : Ticks m} : a.mirror ≤ b.mirror ↔ b ≤ a := by
  show a.mirror.count ≤ b.mirror.count ↔ b.count ≤ a.count
  rw [Int64.le_iff_toInt_le, Int64.le_iff_toInt_le, toInt_mirror, toInt_mirror]
  omega

theorem mirror_lt_mirror {a b : Ticks m} : a.mirror < b.mirror ↔ b < a := by
  show a.mirror.count < b.mirror.count ↔ b.count < a.count
  rw [Int64.lt_iff_toInt_lt, Int64.lt_iff_toInt_lt, toInt_mirror, toInt_mirror]
  omega

@[simp]
theorem mirror_mirror (a : Ticks m) : a.mirror.mirror = a := by
  have hcount : a.mirror.mirror.count = a.count := by
    rw [← Int64.toInt_inj, toInt_mirror, toInt_mirror]
    omega
  exact congrArg mk hcount

theorem mirror_inj {a b : Ticks m} : a.mirror = b.mirror ↔ a = b := by
  constructor
  · intro h
    rw [← mirror_mirror a, h, mirror_mirror]
  · exact congrArg mirror

/-- The distance of two amounts is that of their mirrors, the other way around. -/
theorem subClamped_mirror (a b : Ticks m) : a.mirror.subClamped b.mirror = b.subClamped a := by
  rw [subClamped, subClamped, toInt_mirror, toInt_mirror]
  congr 1
  omega

end Ticks

namespace Side

theorem isBetter_mirror (side : Side) (price limit : Price) :
    side.opposite.IsBetter price.mirror limit.mirror ↔ side.IsBetter price limit := by
  cases side <;> exact Ticks.mirror_lt_mirror

theorem isWithin_mirror (side : Side) (price limit : Price) :
    side.opposite.IsWithin price.mirror limit.mirror ↔ side.IsWithin price limit := by
  cases side <;> exact Ticks.mirror_le_mirror

end Side

def Level.mirror (level : Level) : Level := { level with price := level.price.mirror }

def Event.mirror (e : Event) : Event :=
  { e with side := e.side.opposite, price := e.price.mirror }

/-- The image with both sides exchanged and their prices turned around. -/
def Image.mirror (image : Image) : Image :=
  { image with
    bids := image.asks.map fun entry => (entry.1.mirror, entry.2)
    asks := image.bids.map fun entry => (entry.1.mirror, entry.2) }

def Book.Change.mirror : Change → Change
  | event e => event e.mirror
  | image i => image i.mirror

theorem Level.mirror_mirror (level : Level) : level.mirror.mirror = level := by
  unfold Level.mirror
  dsimp only
  rw [Ticks.mirror_mirror]

/-! ## One side -/

namespace Ladder

variable {side : Side} {b : Ladder side} {b' : Ladder side.opposite}

/-- What rests at a price rests at the mirror of the price on the opposite side. -/
def Mirrors (b : Ladder side) (b' : Ladder side.opposite) : Prop :=
  ∀ price : Price, b'.find? price.mirror = (b.find? price).map Level.mirror

theorem isBetter_asymm (side : Side) {price limit : Price} (h : side.IsBetter price limit) :
    ¬ side.IsBetter limit price := by
  cases side <;> exact Int64.lt_asymm h

namespace Mirrors

theorem empty (side : Side) : (Ladder.empty : Ladder side).Mirrors Ladder.empty := by
  intro price
  rw [find?_empty, find?_empty]
  rfl

theorem put (h : b.Mirrors b') (level : Level) : (b.put level).Mirrors (b'.put level.mirror) := by
  intro price
  have hprice : level.mirror.price = price.mirror ↔ level.price = price := Ticks.mirror_inj
  rw [find?_put, find?_put]
  by_cases heq : level.price = price
  · rw [if_pos heq, if_pos (hprice.2 heq)]
    show (if level.quantity.IsPositive then some level.mirror else none) = _
    split <;> rfl
  · rw [if_neg heq, if_neg fun hmirror => heq (hprice.1 hmirror)]
    exact h price

theorem hit (h : b.Mirrors b') (price : Price) (traded : Quantity) (sequence timestamp : Int64) :
    (b.hit price traded sequence timestamp).2.Mirrors
      (b'.hit price.mirror traded sequence timestamp).2 := by
  unfold Ladder.hit
  rw [h price]
  cases b.find? price with
  | none => exact h
  | some level => exact h.put { level with
      quantity := level.quantity.subClamped traded, sequence := sequence, timestamp := timestamp }

/-- The entries of an image, turned around one by one. -/
theorem foldl_put (h : b.Mirrors b') (image : Image) (entries : List (Price × Quantity)) :
    (entries.foldl (fun s entry => s.put (Book.imageLevel image entry)) b).Mirrors
      ((entries.map fun entry => (entry.1.mirror, entry.2)).foldl
        (fun s entry => s.put (Book.imageLevel image.mirror entry)) b') := by
  induction entries generalizing b b' with
  | nil => exact h
  | cons entry entries ih => exact ih (h.put (Book.imageLevel image entry))

/-! ### What is read -/

/-- The mirrored levels are the levels of the mirror, in the same order. -/
theorem levels_eq (h : b.Mirrors b') (hb : b.WellFormed) (hb' : b'.WellFormed) :
    b'.levels = b.levels.map Level.mirror := by
  have hordered : (b.levels.map Level.mirror).Pairwise fun k l =>
      side.opposite.IsBetter k.price l.price := by
    rw [List.pairwise_map]
    exact hb.ordered.imp fun hbetter => (side.isBetter_mirror _ _).2 hbetter
  have hnodup : ∀ {levels : List Level},
      levels.Pairwise (fun k l => side.opposite.IsBetter k.price l.price) → levels.Nodup := by
    intro levels hlevels
    refine hlevels.imp ?_
    rintro k _ hbetter rfl
    exact isBetter_irrefl _ _ hbetter
  have hmem : ∀ level, level ∈ b'.levels ↔ level ∈ b.levels.map Level.mirror := by
    intro level
    rw [List.mem_map, mem_levels_iff]
    constructor
    · rintro ⟨price, hprice⟩
      have hfound := h price.mirror
      rw [Ticks.mirror_mirror, hprice] at hfound
      obtain ⟨source, hsource, hmirror⟩ := Option.map_eq_some_iff.1 hfound.symm
      exact ⟨source, mem_levels_iff.2 ⟨_, hsource⟩, hmirror⟩
    · rintro ⟨source, hsource, rfl⟩
      obtain ⟨price, hprice⟩ := mem_levels_iff.1 hsource
      exact ⟨price.mirror, by rw [h price, hprice]; rfl⟩
  have hperm : b'.levels.Perm (b.levels.map Level.mirror) :=
    (List.perm_ext_iff_of_nodup (hnodup hb'.ordered) (hnodup hordered)).2 hmem
  exact hperm.eq_of_pairwise (fun k l _ _ hkl hlk => absurd hlk (isBetter_asymm _ hkl)) hb'.ordered
    hordered

theorem sumOf_map_mirror (levels : List Level) : sumOf (levels.map Level.mirror) = sumOf levels := by
  unfold sumOf
  rw [List.foldr_map]
  rfl

variable (h : b.Mirrors b') (hb : b.WellFormed) (hb' : b'.WellFormed)

include h hb hb'

theorem top_eq (n : Nat) : b'.top n = (b.top n).map Level.mirror := by
  rw [top_eq_take_levels, top_eq_take_levels, h.levels_eq hb hb', List.map_take]

theorem rank?_eq (i : Nat) : b'.rank? i = (b.rank? i).map Level.mirror := by
  rw [rank?, rank?, h.levels_eq hb hb', List.getElem?_map]

theorem best?_eq : b'.best? = b.best?.map Level.mirror := by
  rw [best?_eq_head?_levels, best?_eq_head?_levels, h.levels_eq hb hb', List.head?_map]

theorem size_eq : b'.size = b.size := by
  rw [← length_levels, ← length_levels, h.levels_eq hb hb', List.length_map]

theorem depthSum_eq (n : Nat) : b'.depthSum n = b.depthSum n := by
  rw [depthSum, depthSum, h.top_eq hb hb', sumOf_map_mirror]

theorem upTo_eq (limit : Price) : b'.upTo limit.mirror = (b.upTo limit).map Level.mirror := by
  unfold upTo
  rw [h.levels_eq hb hb', List.takeWhile_map]
  congr 2
  funext level
  exact decide_eq_decide.2 (side.isWithin_mirror level.price limit)

theorem atOrBetter_eq (limit : Price) : b'.atOrBetter limit.mirror = b.atOrBetter limit := by
  rw [atOrBetter, atOrBetter, h.upTo_eq hb hb', sumOf_map_mirror]

end Mirrors

end Ladder

/-! ## Both sides -/

namespace Book

/-- A book whose sides are those of another one, exchanged and turned around. -/
structure Mirrors (b b' : Book) : Prop where
  instrument_eq : b'.instrument = b.instrument
  tradeRule_eq : b'.tradeRule = b.tradeRule
  ladders (side : Side) : (b.ladder side).Mirrors (b'.ladder side.opposite)
  phase_eq : b'.phase = b.phase
  sequence_eq : b'.sequence = b.sequence
  timestamp_eq : b'.timestamp = b.timestamp
  updates_eq : b'.updates = b.updates
  trades_eq : b'.trades = b.trades

namespace Mirrors

variable {b b' : Book}

theorem empty (instrument : Instrument) (tradeRule : TradeRule) :
    (Book.empty instrument tradeRule).Mirrors (Book.empty instrument tradeRule) where
  instrument_eq := rfl
  tradeRule_eq := rfl
  ladders side := by cases side <;> exact .empty _
  phase_eq := rfl
  sequence_eq := rfl
  timestamp_eq := rfl
  updates_eq := rfl
  trades_eq := rfl

theorem setLadder (h : b.Mirrors b') {side : Side} {ladder : Ladder side}
    {ladder' : Ladder side.opposite} (hladder : ladder.Mirrors ladder') :
    (b.setLadder side ladder).Mirrors (b'.setLadder side.opposite ladder') := by
  obtain ⟨hinstrument, hrule, hladders, hphase, hsequence, htimestamp, hupdates, htrades⟩ := h
  have hladders' : ∀ other, ((b.setLadder side ladder).ladder other).Mirrors
      ((b'.setLadder side.opposite ladder').ladder other.opposite) := by
    intro other
    cases side <;> cases other
    · exact hladder
    · exact hladders .sell
    · exact hladders .buy
    · exact hladder
  cases side <;>
    exact ⟨hinstrument, hrule, hladders', hphase, hsequence, htimestamp, hupdates, htrades⟩

theorem put (h : b.Mirrors b') (side : Side) (level : Level) :
    (b.put side level).Mirrors (b'.put side.opposite level.mirror) :=
  h.setLadder ((h.ladders side).put level)

theorem clear (h : b.Mirrors b') : b.clear.Mirrors b'.clear :=
  { h with ladders := fun side => by cases side <;> exact .empty _ }

/-- A trade hits the mirror of the level that it hits. -/
theorem trade (h : b.Mirrors b') (e : Event) : (b.trade e).Mirrors (b'.trade e.mirror) := by
  have hcounted : Mirrors { b with trades := b.trades + 1 }
      { b' with trades := b'.trades + 1 } :=
    { h with
      ladders := fun side => by cases side <;> exact h.ladders _
      trades_eq := congrArg (· + 1) h.trades_eq }
  cases hrule : b.tradeRule with
  | countOnly =>
    rw [trade_of_countOnly hrule, trade_of_countOnly (h.tradeRule_eq.trans hrule)]
    exact hcounted
  | takeResting =>
    rw [trade_of_takeResting hrule, trade_of_takeResting (h.tradeRule_eq.trans hrule)]
    exact hcounted.setLadder
      ((hcounted.ladders e.side.opposite).hit e.price e.quantity e.sequence e.timestamp)

theorem change (h : b.Mirrors b') (e : Event) : (b.change e).Mirrors (b'.change e.mirror) := by
  have hkind : e.mirror.kind = e.kind := rfl
  unfold Book.change
  rw [hkind]
  cases e.kind with
  | update => exact h.put e.side e.level
  | trade => exact h.trade e
  | snapshot => exact h.clear.put e.side e.level

theorem stamp (h : b.Mirrors b') (sequence timestamp : Int64) :
    (b.stamp sequence timestamp).Mirrors (b'.stamp sequence timestamp) where
  instrument_eq := h.instrument_eq
  tradeRule_eq := h.tradeRule_eq
  ladders side := by cases side <;> exact h.ladders _
  phase_eq := rfl
  sequence_eq := rfl
  timestamp_eq := rfl
  updates_eq := congrArg (· + 1) h.updates_eq
  trades_eq := h.trades_eq

theorem load (h : b.Mirrors b') (image : Image) : (b.load image).Mirrors (b'.load image.mirror) := by
  have hbids := (Ladder.Mirrors.empty .buy).foldl_put image image.bids
  have hasks := (Ladder.Mirrors.empty .sell).foldl_put image image.asks
  exact ((h.setLadder hbids).setLadder hasks).stamp image.sequence image.timestamp

/-- The mirror of an operation does to the mirror of a book what the operation does to the book. -/
theorem take (h : b.Mirrors b') (c : Change) : (b.take c).Mirrors (b'.take c.mirror) := by
  cases c with
  | event e =>
    by_cases he : e.instrument = b.instrument
    · have he' : e.mirror.instrument = b'.instrument := he.trans h.instrument_eq.symm
      rw [take_event he, Change.mirror, take_event he']
      exact (h.change e).stamp e.sequence e.timestamp
    · have he' : e.mirror.instrument ≠ b'.instrument := by
        rw [h.instrument_eq]
        exact he
      rw [take_foreign he, Change.mirror, take_foreign he']
      exact h
  | image i => exact h.load i

theorem run (h : b.Mirrors b') (changes : List Change) :
    (b.run changes).Mirrors (b'.run (changes.map Change.mirror)) := by
  induction changes generalizing b b' with
  | nil => exact h
  | cons c changes ih => exact ih (h.take c)

/-- The best prices of a book and its mirror, exchanged and turned around. -/
theorem inside?_eq (h : b.Mirrors b') (hb : b.WellFormed) (hb' : b'.WellFormed) :
    b'.inside? = b.inside?.map fun inside => (inside.2.mirror, inside.1.mirror) := by
  have hasks : b'.asks.best? = b.bids.best?.map Level.mirror :=
    (h.ladders .buy).best?_eq (hb .buy) (hb' .sell)
  have hbids : b'.bids.best? = b.asks.best?.map Level.mirror :=
    (h.ladders .sell).best?_eq (hb .sell) (hb' .buy)
  unfold inside?
  rw [hasks, hbids]
  cases b.bids.best? <;> cases b.asks.best? <;> rfl

end Mirrors

/-! ## What the books answer -/

/-- A book and its mirror answer every question alike, with the sides exchanged and the prices
turned around. -/
structure MirrorAnswers (b b' : Book) : Prop where
  levels_eq (side : Side) :
    (b'.ladder side.opposite).levels = (b.ladder side).levels.map Level.mirror
  top_eq (side : Side) (n : Nat) :
    (b'.ladder side.opposite).top n = ((b.ladder side).top n).map Level.mirror
  rank?_eq (side : Side) (i : Nat) :
    (b'.ladder side.opposite).rank? i = ((b.ladder side).rank? i).map Level.mirror
  find?_eq (side : Side) (price : Price) :
    (b'.ladder side.opposite).find? price.mirror =
      ((b.ladder side).find? price).map Level.mirror
  best?_eq (side : Side) :
    (b'.ladder side.opposite).best? = (b.ladder side).best?.map Level.mirror
  size_eq (side : Side) : (b'.ladder side.opposite).size = (b.ladder side).size
  depth_eq (side : Side) (n : Nat) :
    (b'.ladder side.opposite).depth n = (b.ladder side).depth n
  atOrBetter_eq (side : Side) (limit : Price) :
    (b'.ladder side.opposite).atOrBetter limit.mirror = (b.ladder side).atOrBetter limit
  phase_eq : b'.phase = b.phase
  sequence_eq : b'.sequence = b.sequence
  timestamp_eq : b'.timestamp = b.timestamp
  updates_eq : b'.updates = b.updates
  trades_eq : b'.trades = b.trades
  spread_eq : b'.spread = b.spread
  isCrossed_eq : b'.isCrossed = b.isCrossed
  imbalance_eq (n : Nat) : b'.imbalance n = (b.imbalance n).neg

theorem Mirrors.imbalance_eq {b b' : Book} (h : b.Mirrors b') (hb : b.WellFormed)
    (hb' : b'.WellFormed) (n : Nat) : b'.imbalance n = (b.imbalance n).neg := by
  have hasks : b'.asks.depthSum n = b.bids.depthSum n :=
    (h.ladders .buy).depthSum_eq (hb .buy) (hb' .sell) n
  have hbids : b'.bids.depthSum n = b.asks.depthSum n :=
    (h.ladders .sell).depthSum_eq (hb .sell) (hb' .buy) n
  unfold imbalance
  dsimp only
  rw [hasks, hbids, Int.add_comm]
  split
  · rfl
  · rw [← Int.neg_sub, Decimal.ofParts?_neg]
    cases Decimal.ofParts? (b.bids.depthSum n - b.asks.depthSum n) 0 with
    | none => rfl
    | some difference =>
      cases Decimal.ofParts? (b.bids.depthSum n + b.asks.depthSum n) 0 with
      | none => rfl
      | some total =>
        dsimp only [Option.map_some]
        rw [Decimal.div?_neg]
        cases difference.div? total <;> rfl

theorem Mirrors.answers {b b' : Book} (h : b.Mirrors b') (hb : b.WellFormed)
    (hb' : b'.WellFormed) : b.MirrorAnswers b' := by
  have hinside := h.inside?_eq hb hb'
  constructor
  case levels_eq => exact fun side => (h.ladders side).levels_eq (hb side) (hb' _)
  case top_eq => exact fun side => (h.ladders side).top_eq (hb side) (hb' _)
  case rank?_eq => exact fun side => (h.ladders side).rank?_eq (hb side) (hb' _)
  case find?_eq => exact h.ladders
  case best?_eq => exact fun side => (h.ladders side).best?_eq (hb side) (hb' _)
  case size_eq => exact fun side => (h.ladders side).size_eq (hb side) (hb' _)
  case depth_eq =>
    intro side n
    rw [Ladder.depth, Ladder.depth, (h.ladders side).depthSum_eq (hb side) (hb' _)]
  case atOrBetter_eq => exact fun side => (h.ladders side).atOrBetter_eq (hb side) (hb' _)
  case phase_eq => exact h.phase_eq
  case sequence_eq => exact h.sequence_eq
  case timestamp_eq => exact h.timestamp_eq
  case updates_eq => exact h.updates_eq
  case trades_eq => exact h.trades_eq
  case spread_eq =>
    rw [spread, spread, hinside]
    cases b.inside? with
    | none => rfl
    | some inside => exact Ticks.subClamped_mirror inside.1 inside.2
  case isCrossed_eq =>
    rw [isCrossed, isCrossed, hinside]
    cases b.inside? with
    | none => rfl
    | some inside => exact decide_eq_decide.2 Ticks.mirror_le_mirror
  case imbalance_eq => exact h.imbalance_eq hb hb'

/-- A book that follows the mirrored operations is the mirror of the book that follows the
operations, whatever they are. -/
theorem mirrorAnswers_run (instrument : Instrument) (tradeRule : TradeRule)
    (changes : List Change) :
    ((empty instrument tradeRule).run changes).MirrorAnswers
      ((empty instrument tradeRule).run (changes.map Change.mirror)) := by
  have hempty := wellFormed_empty instrument tradeRule
  exact ((Mirrors.empty instrument tradeRule).run changes).answers (hempty.run changes)
    (hempty.run _)

end Book

end DepthFeed

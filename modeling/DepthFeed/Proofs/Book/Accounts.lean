import Mathlib.Algebra.Group.Nat.Defs
import Mathlib.Data.List.Nodup
import DepthFeed.Proofs.Book.Replay

/-!
# What a book keeps account of

A book that followed some operations since it was new counts those that it accepted, and has its
levels in order. A refused event leaves no trace.

* `Change.sequence`, `Change.timestamp`, `Change.IsTrade`: what a book notes of an operation.
* `Ladder.WellFormed.find?_of_mem_levels`, `Ladder.WellFormed.nodup_prices`: the list of levels of a
  side.
* `Book.take_notes`, `Book.run_notes`: what an accepted operation, and a run, change besides the
  levels.
* `Book.accounts_run`: levels, counts and refusals after fewer than `2 ^ 64` operations.
-/

namespace DepthFeed

/-! ## The levels of a side -/

namespace Ladder

variable {side : Side} {b : Ladder side}

theorem mem_levels_iff {level : Level} :
    level ∈ b.levels ↔ ∃ price, b.find? price = some level := by
  unfold levels
  rw [List.mem_map]
  constructor
  · rintro ⟨entry, hentry, rfl⟩
    exact ⟨entry.1, Std.TreeMap.mem_toList_iff_getElem?_eq_some.1 hentry⟩
  · rintro ⟨price, hprice⟩
    exact ⟨(price, level), Std.TreeMap.mem_toList_iff_getElem?_eq_some.2 hprice, rfl⟩

/-- A listed level is the one that is found at its price. -/
theorem WellFormed.find?_of_mem_levels (h : b.WellFormed) {level : Level} (hmem : level ∈ b.levels) :
    b.find? level.price = some level := by
  obtain ⟨price, hprice⟩ := mem_levels_iff.1 hmem
  rw [h.price_eq hprice]
  exact hprice

theorem isBetter_irrefl (side : Side) (price : Price) : ¬ side.IsBetter price price := by
  cases side <;> exact Int64.lt_irrefl

/-- No price is listed twice. -/
theorem WellFormed.nodup_prices (h : b.WellFormed) : (b.levels.map Level.price).Nodup := by
  rw [List.Nodup, List.pairwise_map]
  refine h.ordered.imp ?_
  intro k l hbetter hprice
  rw [hprice] at hbetter
  exact isBetter_irrefl side l.price hbetter

end Ladder

namespace Book

/-! ## What is noted of an operation -/

namespace Change

def sequence : Change → Int64
  | event e => e.sequence
  | image i => i.sequence

def timestamp : Change → Int64
  | event e => e.timestamp
  | image i => i.timestamp

def IsTrade : Change → Prop
  | event e => e.kind = .trade
  | image _ => False

instance (c : Change) : Decidable c.IsTrade :=
  match c with
  | event e => inferInstanceAs (Decidable (e.kind = .trade))
  | image _ => inferInstanceAs (Decidable False)

end Change

variable {b : Book} {instrument : Instrument}

@[simp]
theorem updates_setLadder (b : Book) (side : Side) (ladder : Ladder side) :
    (b.setLadder side ladder).updates = b.updates := by
  cases side <;> rfl

@[simp]
theorem trades_setLadder (b : Book) (side : Side) (ladder : Ladder side) :
    (b.setLadder side ladder).trades = b.trades := by
  cases side <;> rfl

/-- An event counts as an update when the book is stamped, and as a trade when it is applied. -/
theorem change_counts (b : Book) (e : Event) :
    (b.change e).updates = b.updates ∧
      (b.change e).trades = b.trades + if e.kind = .trade then 1 else 0 := by
  unfold change
  cases e.kind with
  | update => simp [put]
  | snapshot => simp [put, clear]
  | trade =>
    unfold trade
    dsimp only
    split <;> simp

/-- What an accepted operation changes besides the levels. -/
theorem take_notes {c : Change} (hfor : c.IsFor b.instrument) :
    (b.take c).updates = b.updates + 1 ∧
      (b.take c).trades = b.trades + (if c.IsTrade then 1 else 0) ∧
      (b.take c).phase = .live ∧
      (b.take c).sequence = c.sequence ∧ (b.take c).timestamp = c.timestamp := by
  cases c with
  | image i => exact ⟨rfl, (UInt64.add_zero b.trades).symm, rfl, rfl, rfl⟩
  | event e =>
    obtain ⟨hupdates, htrades⟩ := change_counts b e
    rw [take_event hfor]
    exact ⟨congrArg (· + 1) hupdates, htrades, rfl, rfl, rfl⟩

/-! ## What is noted of a run -/

theorem accepted_append_singleton (instrument : Instrument) (changes : List Change) (c : Change) :
    accepted instrument (changes ++ [c]) =
      accepted instrument changes ++ if c.IsFor instrument then [c] else [] := by
  unfold accepted
  rw [List.filter_append]
  by_cases hfor : c.IsFor instrument <;> simp [hfor]

def tradesAmong (changes : List Change) : Nat := changes.countP fun c => c.IsTrade

/-- What a book notes besides its levels is what the accepted operations tell. -/
structure Notes (b : Book) (noted : List Change) : Prop where
  updates_eq : b.updates = .ofNat noted.length
  trades_eq : b.trades = .ofNat (tradesAmong noted)
  phase_eq : b.phase = if noted = [] then .fresh else .live
  sequence_eq : b.sequence = (noted.getLast?.map Change.sequence).getD 0
  timestamp_eq : b.timestamp = (noted.getLast?.map Change.timestamp).getD 0

theorem notes_empty (instrument : Instrument) (tradeRule : TradeRule) :
    (empty instrument tradeRule).Notes [] := ⟨rfl, rfl, rfl, rfl, rfl⟩

theorem Notes.take {noted : List Change} (h : b.Notes noted) {c : Change}
    (hfor : c.IsFor b.instrument) : (b.take c).Notes (noted ++ [c]) := by
  obtain ⟨hupdates, htrades, hphase, hsequence, htimestamp⟩ := take_notes hfor
  constructor
  · rw [hupdates, h.updates_eq, List.length_append, List.length_singleton, UInt64.ofNat_add]
    rfl
  · rw [htrades, h.trades_eq, tradesAmong, tradesAmong, List.countP_append, UInt64.ofNat_add]
    by_cases htrade : c.IsTrade <;> simp [htrade]
  · rw [hphase, if_neg (by simp)]
  · rw [hsequence, List.getLast?_concat]
    rfl
  · rw [htimestamp, List.getLast?_concat]
    rfl

/-- A run is the run of its accepted operations. -/
theorem run_accepted (instrument : Instrument) (tradeRule : TradeRule) (changes : List Change) :
    (empty instrument tradeRule).run changes =
      (empty instrument tradeRule).run (accepted instrument changes) := by
  induction changes using List.reverseRecOn with
  | nil => rfl
  | append_singleton changes c ih =>
    have hinstrument := (run_keeps (empty instrument tradeRule) changes).1
    rw [run_append_singleton, accepted_append_singleton]
    by_cases hfor : c.IsFor instrument
    · rw [if_pos hfor, run_append_singleton, ih]
    · have hnot : ¬ c.IsFor ((empty instrument tradeRule).run changes).instrument := by
        rw [hinstrument]
        exact hfor
      rw [if_neg hfor, List.append_nil, take_of_not_isFor hnot, ih]

/-- A new book notes every operation of a run that is for its instrument. -/
theorem run_notes (tradeRule : TradeRule) {noted : List Change}
    (hfor : ∀ c ∈ noted, c.IsFor instrument) :
    ((empty instrument tradeRule).run noted).Notes noted := by
  induction noted using List.reverseRecOn with
  | nil => exact notes_empty instrument tradeRule
  | append_singleton noted c ih =>
    have hinstrument := (run_keeps (empty instrument tradeRule) noted).1
    have hearlier := ih fun d hd => hfor d (List.mem_append_left _ hd)
    rw [run_append_singleton]
    apply hearlier.take
    rw [hinstrument]
    exact hfor c (List.mem_append_right _ List.mem_cons_self)

/-! ## Accounts -/

/-- What a book has to do with the operations that it followed since it was new. -/
structure Accounts (instrument : Instrument) (tradeRule : TradeRule) (changes : List Change)
    (b : Book) : Prop where
  /-- Refused events leave no trace. -/
  eq_run_accepted : b = (empty instrument tradeRule).run (accepted instrument changes)
  /-- A level holds a positive quantity, and is the one that is found at its price. -/
  positive (side : Side) (level : Level) : level ∈ (b.ladder side).levels →
    level.quantity.IsPositive ∧ (b.ladder side).find? level.price = some level
  /-- What is found at a price is a level of that price. -/
  price_eq (side : Side) (price : Price) (level : Level) :
    (b.ladder side).find? price = some level →
      level.price = price ∧ level ∈ (b.ladder side).levels
  nodup_prices (side : Side) : ((b.ladder side).levels.map Level.price).Nodup
  bids_descend : b.bids.levels.Pairwise fun k l => l.price < k.price
  asks_ascend : b.asks.levels.Pairwise fun k l => k.price < l.price
  updates_eq : b.updates.toNat = (accepted instrument changes).length
  trades_eq : b.trades.toNat = tradesAmong (accepted instrument changes)
  live_iff : b.phase = .live ↔ 0 < b.updates
  sequence_eq : b.sequence = ((accepted instrument changes).getLast?.map Change.sequence).getD 0
  timestamp_eq : b.timestamp = ((accepted instrument changes).getLast?.map Change.timestamp).getD 0
  /-- An event of another instrument is refused with both instruments named, and changes nothing. -/
  foreign (e : Event) : e.instrument ≠ instrument →
    b.apply e = .error (.otherInstrument instrument e.instrument) ∧ b.take (.event e) = b
  own (e : Event) : e.instrument = instrument → ∃ b', b.apply e = .ok b'

/-- A book that followed fewer than `2 ^ 64` operations has its levels in order, has counted what it
accepted, and refuses what is not its own. -/
theorem accounts_run (instrument : Instrument) (tradeRule : TradeRule) {changes : List Change}
    (hlength : changes.length < 2 ^ 64) :
    Accounts instrument tradeRule changes ((empty instrument tradeRule).run changes) := by
  have hrun := run_accepted instrument tradeRule changes
  have hwell := (wellFormed_empty instrument tradeRule).run changes
  have hnotes : ((empty instrument tradeRule).run changes).Notes (accepted instrument changes) := by
    rw [hrun]
    refine run_notes tradeRule fun c hc => ?_
    simpa using (List.mem_filter.1 hc).2
  have hinstrument : ((empty instrument tradeRule).run changes).instrument = instrument :=
    (run_keeps (empty instrument tradeRule) changes).1
  generalize (empty instrument tradeRule).run changes = b at hrun hwell hnotes hinstrument ⊢
  have haccepted : (accepted instrument changes).length < 2 ^ 64 :=
    Nat.lt_of_le_of_lt (List.length_filter_le _ _) hlength
  have htrades : tradesAmong (accepted instrument changes) < 2 ^ 64 :=
    Nat.lt_of_le_of_lt List.countP_le_length haccepted
  have hupdates : b.updates.toNat = (accepted instrument changes).length := by
    rw [hnotes.updates_eq]
    exact UInt64.toNat_ofNat_of_lt' haccepted
  constructor
  · exact hrun
  · intro side level hmem
    have hfound := (hwell side).find?_of_mem_levels hmem
    exact ⟨(hwell side).positive hfound, hfound⟩
  · intro side price level hfound
    exact ⟨(hwell side).price_eq hfound, Ladder.mem_levels_iff.2 ⟨price, hfound⟩⟩
  · intro side
    exact (hwell side).nodup_prices
  · exact (hwell .buy).ordered
  · exact (hwell .sell).ordered
  · exact hupdates
  · rw [hnotes.trades_eq]
    exact UInt64.toNat_ofNat_of_lt' htrades
  · rw [hnotes.phase_eq, UInt64.lt_iff_toNat_lt, hupdates]
    cases accepted instrument changes with
    | nil => simp
    | cons c later => simp
  · exact hnotes.sequence_eq
  · exact hnotes.timestamp_eq
  · intro e hforeign
    rw [← hinstrument] at hforeign ⊢
    exact ⟨if_neg hforeign, take_foreign hforeign⟩
  · intro e hown
    exact ⟨_, if_pos (hown.trans hinstrument.symm)⟩

/-- An image with a price twice and an empty level, a trade with a negative quantity that adds to a
level as far as counts go, one that takes a level away, and an event of another instrument. -/
theorem accounts_run_image_trades :
    let event (kind : Event.Kind) (instrument : Int32) (price quantity sequence : Int64) : Event :=
      ⟨sequence, 40, .sell, ⟨price⟩, ⟨quantity⟩, kind, ⟨instrument⟩, ⟨1⟩, none⟩
    let changes : List Change :=
      [.image ⟨3, 30, [(⟨10⟩, ⟨5⟩), (⟨12⟩, ⟨7⟩), (⟨10⟩, ⟨6⟩), (⟨11⟩, ⟨0⟩)], [(⟨14⟩, ⟨1⟩)]⟩,
        .event (event .trade 7 10 (-9223372036854775808) 4), .event (event .update 8 13 1 5),
        .event (event .trade 7 12 7 6), .event (event .update 7 13 2 7)]
    let b := (empty ⟨7⟩ .takeResting).run changes
    changes.length < 2 ^ 64 ∧ Accounts ⟨7⟩ .takeResting changes b ∧
      b.updates.toNat = 4 ∧ b.trades.toNat = 2 ∧
      b.bids.levels.map (fun l => (l.price.count, l.quantity.count)) =
        [(10, 9223372036854775807)] ∧
      b.asks.levels.map (fun l => l.price.count) = [13, 14] := by
  intro event changes b
  have hlength : changes.length < 2 ^ 64 := by decide
  have haccounts := accounts_run ⟨7⟩ .takeResting hlength
  exact ⟨hlength, haccounts, haccounts.updates_eq, haccounts.trades_eq, by decide +kernel,
    by decide +kernel⟩

end Book

end DepthFeed

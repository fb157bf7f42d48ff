import DepthFeed.Book.Queries
import DepthFeed.Proofs.Book.Accounts

/-!
# Ranks of the levels

The levels of a side are listed from the best price on, so the place of a level in the list is the
number of levels that are better. Whatever reads a side, by price, by rank, from the top or one level
after the other, reads this one list.

* `Side.isWithin_iff_not_isBetter`: the two ways to compare prices.
* `Ladder.WellFormed.rank?_eq_some_iff`: the level of a rank.
* `Ladder.WellFormed.best?_eq_some_iff`: the most aggressive level.
* `Ladder.OneOrder`, `Ladder.WellFormed.oneOrder`: all that is read of a side.
* `Book.OneOrder`, `Book.oneOrder_run`: all that is read of a book, its snapshots included.
-/

namespace DepthFeed

/-! ## Prices -/

namespace Side

variable {side : Side} {price limit further : Price}

theorem isWithin_iff_not_isBetter : side.IsWithin price limit ↔ ¬ side.IsBetter limit price := by
  cases side <;> exact Int64.not_lt.symm

theorem isWithin_refl (side : Side) (price : Price) : side.IsWithin price price := by
  cases side <;> exact Int64.le_refl _

theorem IsBetter.isWithin (h : side.IsBetter price limit) : side.IsWithin price limit := by
  cases side <;> exact Int64.le_of_lt h

theorem IsWithin.trans (h : side.IsWithin price limit) (hfurther : side.IsWithin limit further) :
    side.IsWithin price further := by
  cases side
  · exact Int64.le_trans hfurther h
  · exact Int64.le_trans h hfurther

end Side

/-! ## One side -/

namespace Ladder

variable {side : Side} {b : Ladder side} {level : Level} {i : Nat}

/-- The level of a rank stands between as many better levels and the worse ones. -/
theorem WellFormed.levels_eq_of_rank? (h : b.WellFormed) (hrank : b.rank? i = some level) :
    ∃ better worse, b.levels = better ++ level :: worse ∧ better.length = i ∧
      (∀ k ∈ better, side.IsBetter k.price level.price) ∧
      ∀ k ∈ worse, side.IsBetter level.price k.price := by
  obtain ⟨hi, hlevel⟩ := List.getElem?_eq_some_iff.1 hrank
  have hsplit : b.levels = b.levels.take i ++ level :: b.levels.drop (i + 1) := by
    rw [← hlevel, ← List.drop_eq_getElem_cons hi, List.take_append_drop]
  have hordered := h.ordered
  rw [hsplit, List.pairwise_append, List.pairwise_cons] at hordered
  obtain ⟨-, ⟨hworse, -⟩, hbetter⟩ := hordered
  exact ⟨_, _, hsplit, List.length_take_of_le (Nat.le_of_lt hi),
    fun k hk => hbetter k hk level List.mem_cons_self, hworse⟩

/-- What holds of the levels better than the one of rank `i`, and not of the worse ones, holds of `i`
levels besides that one. -/
theorem WellFormed.countP_of_rank? (h : b.WellFormed) (hrank : b.rank? i = some level)
    {p : Level → Bool} (hp : ∀ k, side.IsBetter k.price level.price → p k)
    (hnot : ∀ k, side.IsBetter level.price k.price → ¬ p k) :
    b.levels.countP p = i + if p level then 1 else 0 := by
  obtain ⟨better, worse, hlevels, hlength, hbetter, hworse⟩ := h.levels_eq_of_rank? hrank
  have hfront : better.countP p = i := by
    rw [← hlength, List.countP_eq_length]
    exact fun k hk => hp k (hbetter k hk)
  have hback : worse.countP p = 0 := List.countP_eq_zero.2 fun k hk => hnot k (hworse k hk)
  rw [hlevels, List.countP_append, List.countP_cons, hfront, hback, Nat.zero_add]

/-- Exactly `i` levels are better than the one of rank `i`. -/
theorem WellFormed.countP_isBetter (h : b.WellFormed) (hrank : b.rank? i = some level) :
    b.levels.countP (fun k => side.IsBetter k.price level.price) = i := by
  have hworse (k : Level) (hk : side.IsBetter level.price k.price) :
      ¬ decide (side.IsBetter k.price level.price) = true := by
    rw [decide_eq_true_eq]
    exact Side.isWithin_iff_not_isBetter.1 hk.isWithin
  have hself : ¬ decide (side.IsBetter level.price level.price) = true := by
    rw [decide_eq_true_eq]
    exact isBetter_irrefl side level.price
  rw [h.countP_of_rank? hrank (fun _ hk => decide_eq_true hk) hworse, if_neg hself, Nat.add_zero]

/-- The level of rank `i` is the one with exactly `i` better levels. -/
theorem WellFormed.rank?_eq_some_iff (h : b.WellFormed) :
    b.rank? i = some level ↔
      level ∈ b.levels ∧ b.levels.countP (fun k => side.IsBetter k.price level.price) = i := by
  constructor
  · intro hrank
    exact ⟨List.mem_of_getElem? hrank, h.countP_isBetter hrank⟩
  · rintro ⟨hmem, rfl⟩
    obtain ⟨j, hj⟩ := List.mem_iff_getElem?.1 hmem
    rwa [h.countP_isBetter hj]

theorem isSome_rank?_iff : (b.rank? i).isSome ↔ i < b.size := by
  rw [rank?, isSome_getElem?, length_levels]

theorem best?_eq_rank?_zero (b : Ladder side) : b.best? = b.rank? 0 := by
  rw [best?_eq_head?_levels, List.head?_eq_getElem?, rank?]

/-- The best level is the one that no level is better than. -/
theorem WellFormed.best?_eq_some_iff (h : b.WellFormed) :
    b.best? = some level ↔ level ∈ b.levels ∧ ∀ k ∈ b.levels, side.IsWithin level.price k.price := by
  rw [best?_eq_rank?_zero, h.rank?_eq_some_iff, List.countP_eq_zero]
  simp only [decide_eq_true_eq, Side.isWithin_iff_not_isBetter]

theorem WellFormed.find?_eq_some_iff (h : b.WellFormed) {price : Price} :
    b.find? price = some level ↔ level ∈ b.levels ∧ level.price = price := by
  constructor
  · intro hfound
    exact ⟨mem_levels_iff.2 ⟨price, hfound⟩, h.price_eq hfound⟩
  · rintro ⟨hmem, rfl⟩
    exact h.find?_of_mem_levels hmem

/-- The best levels are those of the first ranks. -/
theorem map_some_top (b : Ladder side) (n : Nat) :
    (b.top n).map some = (List.range (min n b.size)).map b.rank? := by
  have hlength : b.levels.length = b.size := length_levels b
  refine List.ext_getElem? fun i => ?_
  rw [top_eq_take_levels, List.getElem?_map, List.getElem?_map]
  by_cases hi : i < min n b.size
  · have hlevel : i < b.levels.length := by omega
    rw [List.getElem?_range hi, List.getElem?_take_of_lt (by omega), Option.map_some, rank?,
      List.getElem?_eq_getElem hlevel, Option.map_some]
  · have htop : (b.levels.take n).length ≤ i := by
      rw [List.length_take]
      omega
    have hrange : (List.range (min n b.size)).length ≤ i := by
      rw [List.length_range]
      omega
    rw [List.getElem?_eq_none htop, List.getElem?_eq_none hrange]
    rfl

theorem top_isPrefix (b : Ladder side) {m n : Nat} (h : m ≤ n) : b.top m <+: b.top n := by
  rw [top_eq_take_levels, top_eq_take_levels]
  exact List.take_prefix_take_left h

theorem best?_eq_none_iff : b.best? = none ↔ b.isEmpty := by
  rw [best?_eq_head?_levels, List.head?_eq_none_iff, isEmpty, decide_eq_true_eq, ← length_levels,
    List.length_eq_zero_iff]

theorem head?_top {n : Nat} (h : 1 ≤ n) : (b.top n).head? = b.best? := by
  rw [top_eq_take_levels, best?_eq_head?_levels, List.head?_take, if_neg (by omega)]

/-- All that is read of a side is read off the same levels in the same order. -/
structure OneOrder (b : Ladder side) : Prop where
  /-- The level at a price is the one of that price in a walk. -/
  find?_iff (price : Price) (level : Level) :
    b.find? price = some level ↔ level ∈ b.walk.rest ∧ level.price = price
  isSome_rank?_iff (i : Nat) : (b.rank? i).isSome ↔ i < b.size
  /-- The level of a rank is the only one with as many better levels. -/
  rank?_iff (i : Nat) (level : Level) :
    b.rank? i = some level ↔ level ∈ b.walk.rest ∧
      b.walk.rest.countP (fun k => side.IsBetter k.price level.price) = i
  best?_eq : b.best? = b.rank? 0
  /-- The best level is the most aggressive one. -/
  best?_iff (level : Level) :
    b.best? = some level ↔ level ∈ b.walk.rest ∧
      ∀ k ∈ b.walk.rest, side.IsWithin level.price k.price
  top_eq (n : Nat) : (b.top n).map some = (List.range (min n b.size)).map b.rank?
  top_isPrefix (m n : Nat) : m ≤ n → b.top m <+: b.top n
  /-- A walk visits the best levels first, and knows how many it has still to visit. -/
  walk_taken (n : Nat) : (b.walk.advance n).1 = b.top n
  walk_bounds (n : Nat) :
    (b.walk.advance n).2.bounds = (b.size - min n b.size, some (b.size - min n b.size))

theorem WellFormed.oneOrder (h : b.WellFormed) : b.OneOrder where
  find?_iff _ _ := h.find?_eq_some_iff
  isSome_rank?_iff _ := Ladder.isSome_rank?_iff
  rank?_iff _ _ := h.rank?_eq_some_iff
  best?_eq := b.best?_eq_rank?_zero
  best?_iff _ := h.best?_eq_some_iff
  top_eq := b.map_some_top
  top_isPrefix _ _ := b.top_isPrefix
  walk_taken n := (b.top_eq_take_levels n).symm
  walk_bounds n := by
    have hrest : (b.levels.drop n).length = b.size - min n b.size := by
      rw [List.length_drop, length_levels]
      omega
    rw [← hrest]
    rfl

end Ladder

/-! ## Both sides -/

namespace Book

/-- The price and the quantity of a level, or zeros. -/
def quote (level : Option Level) : Price × Quantity :=
  (level.map fun l => (l.price, l.quantity)).getD (.zero, .zero)

/-- All that is read of a book, directly or from a snapshot, is read off the same levels. -/
structure OneOrder (b : Book) : Prop where
  sides (side : Side) : (b.ladder side).OneOrder
  /-- A snapshot holds the best levels of each side, and what the book noted last. -/
  snapshot_eq (n : Nat) :
    b.snapshot n = ⟨b.instrument, b.sequence, b.timestamp, b.bids.top n, b.asks.top n⟩
  bestBid?_eq (n : Nat) : 1 ≤ n → (b.snapshot n).bestBid? = b.bids.best?
  bestAsk?_eq (n : Nat) : 1 ≤ n → (b.snapshot n).bestAsk? = b.asks.best?
  bestBid?_none (n : Nat) : 1 ≤ n → ((b.snapshot n).bestBid? = none ↔ b.bids.isEmpty)
  bestAsk?_none (n : Nat) : 1 ≤ n → ((b.snapshot n).bestAsk? = none ↔ b.asks.isEmpty)
  /-- A book quotes the best levels of its snapshots, or zeros. -/
  best_eq (n : Nat) : 1 ≤ n →
    b.best .buy = quote (b.snapshot n).bestBid? ∧ b.best .sell = quote (b.snapshot n).bestAsk?

theorem best_eq_quote (b : Book) (side : Side) : b.best side = quote (b.ladder side).best? := by
  unfold best
  cases (b.ladder side).best? <;> rfl

theorem WellFormed.oneOrder {b : Book} (h : b.WellFormed) : b.OneOrder where
  sides side := (h side).oneOrder
  snapshot_eq _ := rfl
  bestBid?_eq _ := Ladder.head?_top
  bestAsk?_eq _ := Ladder.head?_top
  bestBid?_none n hn := by
    rw [← Ladder.best?_eq_none_iff, ← Ladder.head?_top hn]
    rfl
  bestAsk?_none n hn := by
    rw [← Ladder.best?_eq_none_iff, ← Ladder.head?_top hn]
    rfl
  best_eq n hn := by
    rw [best_eq_quote, best_eq_quote]
    exact ⟨congrArg quote (Ladder.head?_top hn).symm, congrArg quote (Ladder.head?_top hn).symm⟩

/-- Whatever a book has followed, all that is read of it is read off the same levels in the same
order. -/
theorem oneOrder_run (instrument : Instrument) (tradeRule : TradeRule) (changes : List Change) :
    ((empty instrument tradeRule).run changes).OneOrder :=
  ((wellFormed_empty instrument tradeRule).run changes).oneOrder

end Book

end DepthFeed

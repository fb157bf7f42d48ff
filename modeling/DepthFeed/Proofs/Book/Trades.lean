import Mathlib.Algebra.Order.BigOperators.Group.Finset
import DepthFeed.Proofs.Book.Depth

/-!
# What a trade leaves in a book

Where trades take from resting levels, a trade acts on one level, at its price on the side opposite
its aggressor. Its quantity is subtracted whatever its sign. So nothing more rests afterwards unless
the quantity is negative, and then more rests at that price if anything rested there at all.

* `Ladder.resting`: the quantity at a price, in ticks.
* `Ladder.sumOf_filter_le`: a side with no more at any price has no more in any range of prices.
* `Book.TakesAt`: a book in which one level is taken from, and no level appears.
* `Book.HoldsNoMore`: a book in which nothing more rests, at any price or in total.
* `Book.trade_holdsNoMore_iff`: what a trade does, and which trades leave no more.
* `Book.not_trade_holdsNoMore_always`: a trade that leaves more.
-/

namespace DepthFeed

/-! ## Quantities by price -/

namespace Ladder

variable {side : Side} {b b' : Ladder side}

/-- What rests at a price, in ticks. -/
def resting (b : Ladder side) (price : Price) : Int :=
  ((b.find? price).map fun level => level.quantity.count.toInt).getD 0

theorem WellFormed.resting_of_mem (h : b.WellFormed) {level : Level} (hmem : level ∈ b.levels) :
    b.resting level.price = level.quantity.count.toInt := by
  rw [resting, h.find?_of_mem_levels hmem]
  rfl

/-- A sum over the levels in a range of prices is a sum over any prices that include theirs. -/
theorem WellFormed.sumOf_filter_eq (h : b.WellFormed) (p : Price → Bool) {prices : Finset Price}
    (hprices : ∀ level ∈ b.levels, level.price ∈ prices) :
    sumOf (b.levels.filter fun l => p l.price) = ∑ price ∈ prices with p price, b.resting price := by
  have hmap : (b.levels.filter fun l => p l.price).map (fun l => l.quantity.count.toInt) =
      ((b.levels.filter fun l => p l.price).map Level.price).map b.resting := by
    rw [List.map_map]
    refine List.map_congr_left fun level hlevel => ?_
    exact (h.resting_of_mem (List.mem_of_mem_filter hlevel)).symm
  have hnodup : ((b.levels.filter fun l => p l.price).map Level.price).Nodup :=
    h.nodup_prices.sublist (List.filter_sublist.map _)
  rw [sumOf_eq_sum, hmap, ← List.sum_toFinset b.resting hnodup]
  refine Finset.sum_subset ?_ ?_
  · intro price hprice
    obtain ⟨level, hlevel, rfl⟩ := List.mem_map.1 (List.mem_toFinset.1 hprice)
    obtain ⟨hmem, hp⟩ := List.mem_filter.1 hlevel
    exact Finset.mem_filter.2 ⟨hprices level hmem, hp⟩
  · intro price hprice hnot
    have hnone : b.find? price = none := by
      by_contra hfound
      obtain ⟨level, hlevel⟩ := Option.ne_none_iff_exists'.1 hfound
      obtain ⟨hmem, rfl⟩ := h.find?_eq_some_iff.1 hlevel
      have hp := (Finset.mem_filter.1 hprice).2
      exact hnot (List.mem_toFinset.2 (List.mem_map_of_mem (List.mem_filter.2 ⟨hmem, hp⟩)))
    rw [resting, hnone]
    rfl

/-- A side with no more at any price has no more in any range of prices. -/
theorem sumOf_filter_le (h : b.WellFormed) (h' : b'.WellFormed)
    (hle : ∀ price, b'.resting price ≤ b.resting price) (p : Price → Bool) :
    sumOf (b'.levels.filter fun l => p l.price) ≤ sumOf (b.levels.filter fun l => p l.price) := by
  have hprices : ∀ level ∈ b.levels, level.price ∈
      (b.levels.map Level.price ++ b'.levels.map Level.price).toFinset := fun level hmem =>
    List.mem_toFinset.2 (List.mem_append_left _ (List.mem_map_of_mem hmem))
  have hprices' : ∀ level ∈ b'.levels, level.price ∈
      (b.levels.map Level.price ++ b'.levels.map Level.price).toFinset := fun level hmem =>
    List.mem_toFinset.2 (List.mem_append_right _ (List.mem_map_of_mem hmem))
  rw [h.sumOf_filter_eq p hprices, h'.sumOf_filter_eq p hprices']
  exact Finset.sum_le_sum fun price _ => hle price

theorem sumOf_levels_le (h : b.WellFormed) (h' : b'.WellFormed)
    (hle : ∀ price, b'.resting price ≤ b.resting price) :
    sumOf b'.levels ≤ sumOf b.levels := by
  simpa only [List.filter_true] using sumOf_filter_le h h' hle fun _ => true

theorem atOrBetter_le_of_resting_le (h : b.WellFormed) (h' : b'.WellFormed)
    (hle : ∀ price, b'.resting price ≤ b.resting price) (limit : Price) :
    b'.atOrBetter limit ≤ b.atOrBetter limit := by
  refine Ticks.clamp_le_clamp ?_
  rw [h.upTo_eq_filter, h'.upTo_eq_filter]
  exact sumOf_filter_le h h' hle fun price => side.IsWithin price limit

end Ladder

namespace Book

variable {b b' : Book} {e : Event}

/-! ## One level -/

/-- The level at a price after a trade. -/
theorem find?_take_trade (h : b.WellFormed) (hrule : b.tradeRule = .takeResting)
    (hown : e.instrument = b.instrument) (htrade : e.kind = .trade) (side : Side) (price : Price) :
    ((b.take (.event e)).ladder side).find? price =
      if e.side.opposite = side ∧ e.price = price then
        Touch.apply ((b.ladder side).find? price) (.take e.quantity e.sequence e.timestamp)
      else (b.ladder side).find? price := by
  rw [take_event hown, ladder_stamp, change, htrade]
  simp only [find?_trade h, hrule, true_and]

/-- What a trade leaves at its price, in ticks: the rest of what was there, up to the largest
quantity. -/
theorem resting_take_trade (h : b.WellFormed) (hrule : b.tradeRule = .takeResting)
    (hown : e.instrument = b.instrument) (htrade : e.kind = .trade) {level : Level}
    (hlevel : (b.ladder e.side.opposite).find? e.price = some level) :
    ((b.take (.event e)).ladder e.side.opposite).resting e.price =
      max 0 (min (level.quantity.count.toInt - e.quantity.count.toInt) Int64.maxValue.toInt) := by
  have hleast : Int64.minValue.toInt < 0 := by decide
  have hgreatest : 0 < Int64.maxValue.toInt := by decide
  have hclamp := Ticks.toInt_clamp (m := .quantity)
    (level.quantity.count.toInt - e.quantity.count.toInt)
  have hpositive : (level.quantity.subClamped e.quantity).IsPositive ↔
      0 < (level.quantity.subClamped e.quantity).count.toInt := Int64.lt_iff_toInt_lt
  rw [Ladder.resting, find?_take_trade h hrule hown htrade, if_pos ⟨rfl, rfl⟩, hlevel]
  simp only [Touch.apply, Option.bind_some, remaining, hpositive]
  rw [Ticks.subClamped, hclamp]
  split
  · rw [Option.map_some, Option.getD_some]
    dsimp only
    rw [hclamp]
    omega
  · rw [Option.map_none, Option.getD_none]
    omega

/-- A quantity is taken from the level at one price of one side, which goes when nothing is left of
it. Every other level stays as it is, and none appears. -/
structure TakesAt (b b' : Book) (side : Side) (price : Price) (traded : Quantity) : Prop where
  /-- What rests there afterwards stops at the largest quantity. -/
  rest (level : Level) : (b.ladder side).find? price = some level →
    (b'.ladder side).resting price =
      max 0 (min (level.quantity.count.toInt - traded.count.toInt) Int64.maxValue.toInt)
  elsewhere (other : Side) (price' : Price) : (other, price') ≠ (side, price) →
    (b'.ladder other).find? price' = (b.ladder other).find? price'
  noneAppears (other : Side) (price' : Price) :
    (b.ladder other).find? price' = none → (b'.ladder other).find? price' = none

theorem takesAt_take_trade (h : b.WellFormed) (hrule : b.tradeRule = .takeResting)
    (hown : e.instrument = b.instrument) (htrade : e.kind = .trade) :
    b.TakesAt (b.take (.event e)) e.side.opposite e.price e.quantity where
  rest _ hlevel := resting_take_trade h hrule hown htrade hlevel
  elsewhere other price' hne := by
    rw [find?_take_trade h hrule hown htrade, if_neg]
    rintro ⟨rfl, rfl⟩
    exact hne rfl
  noneAppears other price' hnone := by
    rw [find?_take_trade h hrule hown htrade, hnone]
    split <;> rfl

/-! ## All levels -/

/-- Nothing more rests in `b'` than in `b`. The best levels may still hold more, where a level that
went makes place for the next one. -/
structure HoldsNoMore (b b' : Book) : Prop where
  resting_le (side : Side) (price : Price) :
    (b'.ladder side).resting price ≤ (b.ladder side).resting price
  atOrBetter_le (side : Side) (limit : Price) :
    (b'.ladder side).atOrBetter limit ≤ (b.ladder side).atOrBetter limit
  total_le (side : Side) :
    Ladder.sumOf (b'.ladder side).levels ≤ Ladder.sumOf (b.ladder side).levels

/-- Sums compare where every price compares. -/
theorem WellFormed.holdsNoMore (h : b.WellFormed) (h' : b'.WellFormed)
    (hle : ∀ side price, (b'.ladder side).resting price ≤ (b.ladder side).resting price) :
    b.HoldsNoMore b' where
  resting_le := hle
  atOrBetter_le side := Ladder.atOrBetter_le_of_resting_le (h side) (h' side) (hle side)
  total_le side := Ladder.sumOf_levels_le (h side) (h' side) (hle side)

theorem TakesAt.resting_le {side : Side} {price : Price} {traded : Quantity}
    (htakes : b.TakesAt b' side price traded)
    (hle : (b'.ladder side).resting price ≤ (b.ladder side).resting price) (other : Side)
    (price' : Price) : (b'.ladder other).resting price' ≤ (b.ladder other).resting price' := by
  by_cases hsame : (other, price') = (side, price)
  · obtain ⟨rfl, rfl⟩ := Prod.mk.inj hsame
    exact hle
  · rw [Ladder.resting, Ladder.resting, htakes.elsewhere other price' hsame]

/-- Whether a trade leaves no more at its price: it takes a quantity that is not negative, nothing
rests there, or what rests there cannot become more. -/
def Spares (b : Book) (e : Event) : Prop :=
  ∀ level, (b.ladder e.side.opposite).find? e.price = some level →
    0 ≤ e.quantity.count.toInt ∨ level.quantity = .greatest

theorem resting_le_iff_spares (h : b.WellFormed) (hrule : b.tradeRule = .takeResting)
    (hown : e.instrument = b.instrument) (htrade : e.kind = .trade) :
    ((b.take (.event e)).ladder e.side.opposite).resting e.price ≤
      (b.ladder e.side.opposite).resting e.price ↔ b.Spares e := by
  unfold Spares
  cases hfound : (b.ladder e.side.opposite).find? e.price with
  | none =>
    have hnone := (takesAt_take_trade h hrule hown htrade).noneAppears _ _ hfound
    rw [Ladder.resting, Ladder.resting, hfound, hnone]
    simp
  | some level =>
    have hpositive := ((h e.side.opposite).positive hfound).toInt_pos
    have hhigh := level.quantity.count.toInt_le
    have hgreatest : level.quantity = .greatest ↔
        level.quantity.count.toInt = Int64.maxValue.toInt := by
      rw [Int64.toInt_inj]
      exact ⟨congrArg Ticks.count, congrArg Ticks.mk⟩
    rw [(takesAt_take_trade h hrule hown htrade).rest level hfound, Ladder.resting, hfound,
      Option.map_some, Option.getD_some]
    simp only [Option.some.injEq, forall_eq', hgreatest]
    omega

/-! ## Runs -/

/-- Whatever a book has followed, a trade that takes from resting levels takes from the one at its
price on the side opposite its aggressor, and every other one stays as it is. It leaves no more
exactly if its quantity is not negative, or if there is no level to add to or no room in it. -/
theorem trade_holdsNoMore_iff {instrument : Instrument} (changes : List Change) {e : Event}
    (hown : e.instrument = instrument) (htrade : e.kind = .trade) :
    let b := (empty instrument .takeResting).run changes
    ∃ b', b.apply e = .ok b' ∧ b.TakesAt b' e.side.opposite e.price e.quantity ∧
      (b.HoldsNoMore b' ↔ b.Spares e) := by
  intro b
  obtain ⟨hinstrument, hrule⟩ := run_keeps (empty instrument .takeResting) changes
  have hwell : b.WellFormed := (wellFormed_empty instrument .takeResting).run changes
  have hfor : e.instrument = b.instrument := hown.trans hinstrument.symm
  have htakes := takesAt_take_trade hwell hrule hfor htrade
  refine ⟨b.take (.event e), ?_, htakes, ?_⟩
  · rw [apply, if_pos hfor, take_event hfor]
  · rw [← resting_le_iff_spares hwell hrule hfor htrade]
    constructor
    · intro hless
      exact hless.resting_le _ _
    · intro hle
      exact hwell.holdsNoMore (hwell.take _) (htakes.resting_le hle)

/-- Of two offers, one of them of the largest quantity, trades of four ticks take from each. Trades of
four ticks less than nothing add to the one that has room, and leave the other one as it is. -/
theorem trade_holdsNoMore_iff_two_offers :
    let offer (price quantity : Int64) : Change :=
      .event ⟨1, 10, .sell, ⟨price⟩, ⟨quantity⟩, .update, ⟨7⟩, ⟨1⟩, none⟩
    let purchase (price quantity : Int64) : Event :=
      ⟨2, 20, .buy, ⟨price⟩, ⟨quantity⟩, .trade, ⟨7⟩, ⟨1⟩, none⟩
    let changes := [offer 101 10, offer 102 Int64.maxValue]
    let b := (empty ⟨7⟩ .takeResting).run changes
    (∀ price quantity, (purchase price quantity).instrument = ⟨7⟩ ∧
      (purchase price quantity).kind = .trade) ∧
      (∀ price, ∃ b', b.apply (purchase price 4) = .ok b' ∧ b.TakesAt b' .sell ⟨price⟩ ⟨4⟩ ∧
        b.HoldsNoMore b') ∧
      (∃ b', b.apply (purchase 101 (-4)) = .ok b' ∧ b.TakesAt b' .sell ⟨101⟩ ⟨-4⟩ ∧
        ¬ b.HoldsNoMore b') ∧
      ∃ b', b.apply (purchase 102 (-4)) = .ok b' ∧ b.TakesAt b' .sell ⟨102⟩ ⟨-4⟩ ∧
        b.HoldsNoMore b' := by
  intro offer purchase changes b
  have hlow : b.asks.find? ⟨101⟩ = some ⟨⟨101⟩, ⟨10⟩, 1, 10, none⟩ := by decide +kernel
  have hfour : 0 ≤ (4 : Int64).toInt := by decide
  have hhigh : b.asks.find? ⟨102⟩ = some ⟨⟨102⟩, .greatest, 1, 10, none⟩ := by decide +kernel
  refine ⟨fun _ _ => ⟨rfl, rfl⟩, ?_, ?_, ?_⟩
  · intro price
    obtain ⟨b', hb', htakes, hless⟩ :=
      trade_holdsNoMore_iff (e := purchase price 4) changes rfl rfl
    exact ⟨b', hb', htakes, hless.2 fun _ _ => Or.inl hfour⟩
  · obtain ⟨b', hb', htakes, hless⟩ :=
      trade_holdsNoMore_iff (e := purchase 101 (-4)) changes rfl rfl
    refine ⟨b', hb', htakes, fun hmore => ?_⟩
    obtain hnegative | hfull := hless.1 hmore _ hlow
    · exact absurd hnegative (by decide)
    · exact absurd hfull (by decide)
  · obtain ⟨b', hb', htakes, hless⟩ :=
      trade_holdsNoMore_iff (e := purchase 102 (-4)) changes rfl rfl
    refine ⟨b', hb', htakes, hless.2 fun level hlevel => Or.inr ?_⟩
    rw [← Option.some.inj (hhigh.symm.trans hlevel)]

/-- Not every trade leaves no more. One of five ticks less than nothing makes fifteen of ten. -/
theorem not_trade_holdsNoMore_always :
    ¬ ∀ (instrument : Instrument) (changes : List Change) (e : Event) (b' : Book),
      e.instrument = instrument → e.kind = .trade →
        ((empty instrument .takeResting).run changes).apply e = .ok b' →
          ((empty instrument .takeResting).run changes).HoldsNoMore b' := by
  intro h
  let offer : Event := ⟨1, 10, .sell, ⟨100⟩, ⟨10⟩, .update, ⟨7⟩, ⟨1⟩, none⟩
  let purchase : Event := ⟨2, 20, .buy, ⟨100⟩, ⟨-5⟩, .trade, ⟨7⟩, ⟨1⟩, none⟩
  have hless := h ⟨7⟩ [.event offer] purchase _ rfl rfl rfl
  exact absurd (hless.resting_le .sell ⟨100⟩) (by decide +kernel)

end Book

end DepthFeed

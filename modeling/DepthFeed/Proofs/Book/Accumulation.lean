import Mathlib.Data.Fintype.Card
import DepthFeed.Proofs.Book.Imbalance
import DepthFeed.Proofs.Book.Quotes

/-!
# Sums of quantities in an accumulator

Quantities are added up in words of 128 bits. A side has no two levels at one price, so it has at
most `2 ^ 64` of them, and each holds between 1 and `2 ^ 63 - 1` ticks: no sum on the way passes
`2 ^ 127 - 1`, and none is negative. The difference of both sides is such a word too, and so is
their sum if they have no more than `2 ^ 64` levels together. It is none if the largest quantity
rests at every price on both.

* `Ladder.sumIn`, `Ladder.depthIn`, `Ladder.atOrBetterIn`, `Book.imbalanceIn`: what is computed from
  sums, with the sums in words of 128 bits.
* `Ladder.sumIn_eq_sumOf`: an accumulator holds the exact sum if all sums on the way are words.
* `Ladder.WellFormed.size_le`: a side has no more levels than there are prices.
* `Book.exists_imbalanceIn_overflow`: a book that is full on both sides.
* `Ladder.SumsFit`, `Book.ImbalanceFits`, `Book.sums_fit`: what is promised of the sums.
-/

namespace DepthFeed

/-! ## Tick counts -/

namespace Ticks

variable {m : Measure}

/-- An amount by the word of its tick count. -/
def equivFin : Ticks m ≃ Fin (2 ^ 64) where
  toFun a := a.count.toBitVec.toFin
  invFun word := ⟨.ofBitVec (.ofFin word)⟩
  left_inv _ := rfl
  right_inv _ := rfl

instance : Fintype (Ticks m) := .ofEquiv _ equivFin.symm

theorem card_eq : Fintype.card (Ticks m) = 2 ^ 64 :=
  (Fintype.card_congr equivFin).trans (Fintype.card_fin _)

/-- The amount of the tick count nearest to `n`, with `below` for all `n` below the tick counts. -/
def clampOr (below : Ticks m) (n : Int) : Ticks m :=
  if IsSigned64 n then ⟨Int64.ofInt n⟩ else if n < 0 then below else greatest

theorem clampOr_least (n : Int) : (clampOr least n : Ticks m) = clamp n := by
  have hleast : Int64.minValue.toInt = -0x8000_0000_0000_0000 := by decide
  have hgreatest : Int64.maxValue.toInt = 0x7fff_ffff_ffff_ffff := by decide
  suffices hcount : (clampOr least n : Ticks m).count.toInt = (clamp n : Ticks m).count.toInt from
    congrArg mk (Int64.toInt_inj.1 hcount)
  rw [toInt_clamp, clampOr]
  split
  case isTrue hword =>
    obtain ⟨hlow, hhigh⟩ := hword
    rw [Int64.toInt_ofInt_of_le (by omega) (by omega)]
    omega
  case isFalse hword =>
    unfold IsSigned64 at hword
    split
    · show Int64.minValue.toInt = _
      omega
    · show Int64.maxValue.toInt = _
      omega

/-- What stands for the amounts below all tick counts does not matter to a sum that is not
negative. -/
theorem clampOr_of_nonneg {n : Int} (h : 0 ≤ n) (below : Ticks m) : clampOr below n = clamp n := by
  have hnot : ¬ n < 0 := by omega
  rw [← clampOr_least, clampOr, clampOr, if_neg hnot, if_neg hnot]

end Ticks

namespace Ladder

variable {side : Side} {b : Ladder side} {levels : List Level}

/-! ## Accumulators -/

/-- The quantities of some levels, added one after the other in words of 128 bits. -/
def sumIn (mode : OverflowMode) (levels : List Level) : Except Fault Int :=
  levels.foldlM (fun total l => mode.wide .add (total + l.quantity.count.toInt)) 0

def depthSumIn (mode : OverflowMode) (b : Ladder side) (n : Nat) : Except Fault Int :=
  sumIn mode (b.top n)

/-- The quantity in the best `n` levels, with `below` for a sum below all quantities. -/
def depthIn (mode : OverflowMode) (below : Quantity) (b : Ladder side) (n : Nat) :
    Except Fault Quantity := do
  return .clampOr below (← b.depthSumIn mode n)

/-- The quantity at `limit` or better, with `below` for a sum below all quantities. -/
def atOrBetterIn (mode : OverflowMode) (below : Quantity) (b : Ladder side) (limit : Price) :
    Except Fault Quantity := do
  return .clampOr below (← sumIn mode (b.upTo limit))

theorem foldlM_add_eq (mode : OverflowMode) (total : Int)
    (h : ∀ k, IsSigned128 (total + sumOf (levels.take k))) :
    levels.foldlM (fun total l => mode.wide .add (total + l.quantity.count.toInt)) total =
      .ok (total + sumOf levels) := by
  induction levels generalizing total with
  | nil => exact congrArg Except.ok (Int.add_zero total).symm
  | cons level levels ih =>
    -- the first level moves from the list into the total
    have hassoc (rest : List Level) : total + sumOf (level :: rest) =
        total + level.quantity.count.toInt + sumOf rest := (Int.add_assoc ..).symm
    have hfirst : IsSigned128 (total + level.quantity.count.toInt) := by
      have hone := h 1
      rwa [List.take_succ_cons, hassoc, List.take_zero, show sumOf [] = 0 from rfl,
        Int.add_zero] at hone
    rw [List.foldlM_cons, OverflowMode.wide_of_isSigned128 hfirst, hassoc]
    refine ih _ fun k => ?_
    rw [← hassoc]
    exact h (k + 1)

/-- An accumulator holds the exact sum in both modes if all sums on the way are words. -/
theorem sumIn_eq_sumOf (h : ∀ k, IsSigned128 (sumOf (levels.take k))) (mode : OverflowMode) :
    sumIn mode levels = .ok (sumOf levels) := by
  have hsum := foldlM_add_eq mode 0 fun k => (Int.zero_add (sumOf _)).symm ▸ h k
  rwa [Int.zero_add] at hsum

/-! ## How large sums are -/

/-- No two levels stand at one price. -/
theorem WellFormed.size_le (h : b.WellFormed) : b.size ≤ 2 ^ 64 := by
  have hcard := h.nodup_prices.length_le_card
  rwa [List.length_map, length_levels, Ticks.card_eq] at hcard

theorem sumOf_le_length_mul (levels : List Level) :
    sumOf levels ≤ levels.length * (2 ^ 63 - 1) := by
  have hmost : ∀ n ∈ levels.map fun l => l.quantity.count.toInt, n ≤ 2 ^ 63 - 1 := by
    intro n hn
    obtain ⟨level, -, rfl⟩ := List.mem_map.1 hn
    exact Int.le_sub_one_of_lt level.quantity.count.toInt_lt
  have hsum := List.sum_le_card_nsmul _ _ hmost
  rwa [← sumOf_eq_sum, List.length_map, nsmul_eq_mul] at hsum

/-- A sum over levels of a side, bounded by the number of all its levels. -/
theorem sumOf_le_size_mul (hlevels : levels.Sublist b.levels) :
    sumOf levels ≤ b.size * (2 ^ 63 - 1) := by
  have hlength : levels.length ≤ b.size := by
    rw [← length_levels]
    exact hlevels.length_le
  have hmost := sumOf_le_length_mul levels
  omega

theorem top_sublist (b : Ladder side) (n : Nat) : (b.top n).Sublist b.levels := by
  rw [top_eq_take_levels]
  exact List.take_sublist n b.levels

theorem upTo_sublist (b : Ladder side) (limit : Price) : (b.upTo limit).Sublist b.levels :=
  List.takeWhile_sublist _

/-! ## Sums over one side -/

/-- An accumulator goes over some levels without an overflow, and is never negative. -/
structure FitsAccumulator (levels : List Level) : Prop where
  partial_nonneg (k : Nat) : 0 ≤ sumOf (levels.take k)
  partial_le (k : Nat) : sumOf (levels.take k) ≤ 2 ^ 127 - 1
  /-- After each number of levels the accumulator holds their exact sum. -/
  sumIn_eq (mode : OverflowMode) (k : Nat) :
    sumIn mode (levels.take k) = .ok (sumOf (levels.take k))

theorem FitsAccumulator.sumOf_le (h : FitsAccumulator levels) : sumOf levels ≤ 2 ^ 127 - 1 := by
  have hall := h.partial_le levels.length
  rwa [List.take_length] at hall

theorem FitsAccumulator.sumIn_eq_sumOf (h : FitsAccumulator levels) (mode : OverflowMode) :
    sumIn mode levels = .ok (sumOf levels) := by
  have hall := h.sumIn_eq mode levels.length
  rwa [List.take_length] at hall

theorem WellFormed.fitsAccumulator (h : b.WellFormed) (hlevels : levels.Sublist b.levels) :
    FitsAccumulator levels := by
  have hnonneg (k : Nat) : 0 ≤ sumOf (levels.take k) :=
    h.sumOf_nonneg fun _ hl => hlevels.subset (List.mem_of_mem_take hl)
  have hle (k : Nat) : sumOf (levels.take k) ≤ 2 ^ 127 - 1 := by
    have hmost := sumOf_le_size_mul ((List.take_sublist k levels).trans hlevels)
    have hsize := h.size_le
    omega
  refine ⟨hnonneg, hle, fun mode k => ?_⟩
  refine sumIn_eq_sumOf (fun j => ?_) mode
  rw [List.take_take]
  have hlow := hnonneg (min j k)
  have hhigh := hle (min j k)
  constructor <;> omega

/-- What is promised of the sums over the levels of a side. -/
structure SumsFit (b : Ladder side) : Prop where
  size_le : b.size ≤ 2 ^ 64
  top (n : Nat) : FitsAccumulator (b.top n)
  upTo (limit : Price) : FitsAccumulator (b.upTo limit)
  /-- A depth has no fault in either mode, and it does not matter what would stand for a sum below
  all quantities. -/
  depthIn_eq (mode : OverflowMode) (below : Quantity) (n : Nat) :
    b.depthIn mode below n = .ok (b.depth n)
  atOrBetterIn_eq (mode : OverflowMode) (below : Quantity) (limit : Price) :
    b.atOrBetterIn mode below limit = .ok (b.atOrBetter limit)

theorem WellFormed.depthSumIn_eq (h : b.WellFormed) (mode : OverflowMode) (n : Nat) :
    b.depthSumIn mode n = .ok (b.depthSum n) :=
  (h.fitsAccumulator (b.top_sublist n)).sumIn_eq_sumOf mode

theorem WellFormed.sumsFit (h : b.WellFormed) : b.SumsFit where
  size_le := h.size_le
  top n := h.fitsAccumulator (b.top_sublist n)
  upTo limit := h.fitsAccumulator (b.upTo_sublist limit)
  depthIn_eq mode below n := by
    rw [depthIn, h.depthSumIn_eq, depth, ← Ticks.clampOr_of_nonneg (h.depthSum_nonneg n) below]
    rfl
  atOrBetterIn_eq mode below limit := by
    have hnonneg : 0 ≤ sumOf (b.upTo limit) :=
      h.sumOf_nonneg fun _ hl => (b.upTo_sublist limit).subset hl
    rw [atOrBetterIn, (h.fitsAccumulator (b.upTo_sublist limit)).sumIn_eq_sumOf, atOrBetter,
      ← Ticks.clampOr_of_nonneg hnonneg below]
    rfl

/-! ## Full sides -/

/-- Whether a level of the largest quantity rests at every price. -/
def IsFull (b : Ladder side) : Prop :=
  ∀ price, (b.find? price).map Level.quantity = some .greatest

theorem IsFull.quantity_eq (h : b.IsFull) (hwell : b.WellFormed) {level : Level}
    (hmem : level ∈ b.levels) : level.quantity = .greatest := by
  have hfull := h level.price
  rwa [hwell.find?_of_mem_levels hmem, Option.map_some, Option.some_inj] at hfull

theorem IsFull.size_eq (h : b.IsFull) (hwell : b.WellFormed) : b.size = 2 ^ 64 := by
  have hevery : (Finset.univ : Finset Price) ⊆ (b.levels.map Level.price).toFinset := by
    intro price _
    obtain ⟨level, hfound, -⟩ := Option.map_eq_some_iff.1 (h price)
    obtain ⟨hmem, rfl⟩ := hwell.find?_eq_some_iff.1 hfound
    exact List.mem_toFinset.2 (List.mem_map_of_mem hmem)
  have hcard := (Finset.card_le_card hevery).trans (List.toFinset_card_le _)
  rw [Finset.card_univ, Ticks.card_eq, List.length_map, length_levels] at hcard
  exact Nat.le_antisymm hwell.size_le hcard

/-- A full side holds the most that a side can hold, and its sum is still a word. -/
theorem IsFull.depthSum_eq (h : b.IsFull) (hwell : b.WellFormed) :
    b.depthSum (2 ^ 64) = 2 ^ 127 - 2 ^ 64 := by
  have hall : ∀ n ∈ b.levels.map (fun l => l.quantity.count.toInt), n = 2 ^ 63 - 1 := by
    intro n hn
    obtain ⟨level, hmem, rfl⟩ := List.mem_map.1 hn
    rw [h.quantity_eq hwell hmem]
    rfl
  have hlength : b.levels.length = 2 ^ 64 := b.length_levels.trans (h.size_eq hwell)
  rw [Ladder.depthSum_eq, ← hlength, List.take_length, sumOf_eq_sum,
    List.sum_eq_card_nsmul _ _ hall, List.length_map, hlength]
  norm_num

end Ladder

/-! ## Sums over both sides -/

namespace Book

variable {b : Book} {n : Nat}

/-- The imbalance of the best `n` levels, with all sums and the difference in words of 128 bits. -/
def imbalanceIn (mode : OverflowMode) (b : Book) (n : Nat) : Except Fault Decimal := do
  let bid ← b.bids.depthSumIn mode n
  let ask ← b.asks.depthSumIn mode n
  let total ← mode.wide .add (bid + ask)
  if total = 0 then
    return .zero
  else
    let excess ← mode.wide .subtract (bid - ask)
    match Decimal.ofParts? excess 0, Decimal.ofParts? total 0 with
    | some difference, some total => return (difference.div? total).getD .zero
    | _, _ => return .zero

/-- What is promised of the arithmetic of an imbalance. -/
structure ImbalanceFits (b : Book) (n : Nat) : Prop where
  total_isSigned128 : IsSigned128 (b.bids.depthSum n + b.asks.depthSum n)
  excess_isSigned128 : IsSigned128 (b.bids.depthSum n - b.asks.depthSum n)
  /-- An imbalance has no fault, in either mode. -/
  imbalanceIn_eq (mode : OverflowMode) : b.imbalanceIn mode n = .ok (b.imbalance n)

/-- The difference of two depths is a word, however many levels there are. -/
theorem WellFormed.excess_isSigned128 (h : b.WellFormed) (n : Nat) :
    IsSigned128 (b.bids.depthSum n - b.asks.depthSum n) := by
  have hbid := h.bids.depthSum_nonneg n
  have hask := h.asks.depthSum_nonneg n
  have hbid' := (h.bids.sumsFit.top n).sumOf_le
  have hask' := (h.asks.sumsFit.top n).sumOf_le
  unfold Ladder.depthSum at hbid hask ⊢
  constructor <;> omega

/-- The sum of two depths is a word if there are no more levels than prices. -/
theorem WellFormed.total_isSigned128 (h : b.WellFormed) (hsize : b.bids.size + b.asks.size ≤ 2 ^ 64)
    (n : Nat) : IsSigned128 (b.bids.depthSum n + b.asks.depthSum n) := by
  have hbid := h.bids.depthSum_nonneg n
  have hask := h.asks.depthSum_nonneg n
  have hbid' := Ladder.sumOf_le_size_mul (b.bids.top_sublist n)
  have hask' := Ladder.sumOf_le_size_mul (b.asks.top_sublist n)
  unfold Ladder.depthSum at hbid hask ⊢
  constructor <;> omega

theorem WellFormed.imbalanceFits (h : b.WellFormed) (hsize : b.bids.size + b.asks.size ≤ 2 ^ 64)
    (n : Nat) : b.ImbalanceFits n := by
  have htotal := h.total_isSigned128 hsize n
  have hexcess := h.excess_isSigned128 n
  refine ⟨htotal, hexcess, fun mode => ?_⟩
  rw [imbalanceIn, h.bids.depthSumIn_eq, h.asks.depthSumIn_eq]
  simp only [bind, Except.bind, OverflowMode.wide_of_isSigned128 htotal,
    OverflowMode.wide_of_isSigned128 hexcess, imbalance]
  split
  · rfl
  · cases Decimal.ofParts? (b.bids.depthSum n - b.asks.depthSum n) 0 with
    | none => rfl
    | some difference => cases Decimal.ofParts? (b.bids.depthSum n + b.asks.depthSum n) 0 <;> rfl

/-! ### Books that are full on both sides -/

/-- An image with the largest quantity at some prices, on both sides. -/
def largestAt (prices : List Price) : Image where
  sequence := 0
  timestamp := 0
  bids := prices.map fun price => (price, .greatest)
  asks := prices.map fun price => (price, .greatest)

theorem quantity_foldl_put_largestAt {side : Side} (image : Image) {prices : List Price}
    {price : Price} {ladder : Ladder side}
    (h : price ∈ prices ∨ (ladder.find? price).map Level.quantity = some .greatest) :
    (((prices.map fun price => (price, Ticks.greatest)).foldl
      (fun s entry => s.put (imageLevel image entry)) ladder).find? price).map Level.quantity =
        some .greatest := by
  induction prices generalizing ladder with
  | nil => exact h.resolve_left List.not_mem_nil
  | cons first prices ih =>
    refine ih ?_
    rw [Ladder.find?_put]
    split
    case isTrue => exact Or.inr rfl
    case isFalse hfirst =>
      exact h.imp_left fun hmem => (List.mem_cons.1 hmem).resolve_left (Ne.symm hfirst)

theorem isFull_load {prices : List Price} (hprices : ∀ price, price ∈ prices) (b : Book)
    (side : Side) : ((b.load (largestAt prices)).ladder side).IsFull := by
  intro price
  cases side <;> exact quantity_foldl_put_largestAt _ (Or.inl (hprices price))

/-- Without a bound on the levels of both sides their sum can be too large for a word. -/
theorem exists_imbalanceIn_overflow (instrument : Instrument) (tradeRule : TradeRule) :
    ∃ (changes : List Change) (n : Nat),
      ((empty instrument tradeRule).run changes).imbalanceIn .trapping n =
        .error (.overflow .add) := by
  -- one image is enough: it has an entry at every price of both sides
  let b := (empty instrument tradeRule).load (largestAt Finset.univ.toList)
  have hwell : b.WellFormed := wellFormed_load _ _
  have hfull (side : Side) : (b.ladder side).IsFull :=
    isFull_load (fun price => Finset.mem_toList.2 (Finset.mem_univ price)) _ side
  refine ⟨[.image (largestAt Finset.univ.toList)], 2 ^ 64, ?_⟩
  change b.imbalanceIn .trapping (2 ^ 64) = _
  have hbids := (hfull .buy).depthSum_eq hwell.bids
  have hasks := (hfull .sell).depthSum_eq hwell.asks
  change b.bids.depthSum (2 ^ 64) = _ at hbids
  change b.asks.depthSum (2 ^ 64) = _ at hasks
  have hnot : ¬ IsSigned128 ((2 ^ 127 - 2 ^ 64) + (2 ^ 127 - 2 ^ 64)) := by decide
  rw [imbalanceIn, hwell.bids.depthSumIn_eq, hwell.asks.depthSumIn_eq, hbids, hasks]
  simp only [bind, Except.bind, OverflowMode.wide, if_neg hnot]

/-! ### All sums -/

/-- Whatever a side or a book has followed, its quantities are added up without an overflow: those
of one side for any number of levels, and those of both as long as neither has more than
`2 ^ 63`. -/
theorem sums_fit :
    (∀ (side : Side) (changes : List Ladder.Change),
      ((Ladder.empty : Ladder side).run changes).SumsFit) ∧
    ∀ (instrument : Instrument) (tradeRule : TradeRule) (changes : List Change),
      let b := (empty instrument tradeRule).run changes
      b.bids.size ≤ 2 ^ 63 → b.asks.size ≤ 2 ^ 63 → ∀ n, b.ImbalanceFits n := by
  constructor
  · intro side changes
    exact (Ladder.WellFormed.empty.run changes).sumsFit
  · intro instrument tradeRule changes b hbids hasks n
    have hsize : b.bids.size + b.asks.size ≤ 2 ^ 63 + 2 ^ 63 := Nat.add_le_add hbids hasks
    exact ((wellFormed_empty instrument tradeRule).run changes).imbalanceFits hsize n

/-- Two bids that a trade of a negative quantity and an update filled up to the largest quantity, at
both ends of the prices, and an offer as large: the sums are far beyond 64 bits. -/
theorem sums_fit_largest_quantities :
    let event (side : Side) (price quantity : Int64) (kind : Event.Kind) : Change :=
      .event ⟨1, 10, side, ⟨price⟩, ⟨quantity⟩, kind, ⟨7⟩, ⟨1⟩, none⟩
    let b := (empty ⟨7⟩ .takeResting).run
      [event .buy Int64.minValue 10 .update, event .sell Int64.minValue Int64.minValue .trade,
        event .buy Int64.maxValue Int64.maxValue .update, event .sell 0 Int64.maxValue .update]
    b.bids.size ≤ 2 ^ 63 ∧ b.asks.size ≤ 2 ^ 63 ∧
      b.bids.depthSum 2 + b.asks.depthSum 2 = 3 * (2 ^ 63 - 1) ∧ b.ImbalanceFits 2 := by
  intro event b
  have hbids : b.bids.size ≤ 2 ^ 63 := by decide +kernel
  have hasks : b.asks.size ≤ 2 ^ 63 := by decide +kernel
  have hsum : b.bids.depthSum 2 + b.asks.depthSum 2 = 3 * (2 ^ 63 - 1) := by
    rw [Ladder.depthSum_eq, Ladder.depthSum_eq]
    decide +kernel
  exact ⟨hbids, hasks, hsum, sums_fit.2 ⟨7⟩ .takeResting _ hbids hasks 2⟩

end Book

end DepthFeed

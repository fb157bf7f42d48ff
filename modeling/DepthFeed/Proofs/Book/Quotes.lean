import Mathlib.Data.Rat.Floor
import DepthFeed.Proofs.Book.Depth

/-!
# What a book quotes

The best prices of a book may be any tick counts, so their sum and their difference need not be tick
counts. The middle is computed in words of 128 bits, which hold every such sum, and the spread stops
at the ends of the tick counts, which does not change its sign. A quantity of zero is quoted for an
empty side only, since every level holds a positive one.

* `OverflowMode.wide`, `Book.midIn`: arithmetic in words of 128 bits, and the middle computed in it.
* `Book.InsideLaws`: what is made of a best bid and a best ask.
* `Book.QuoteLaws`, `Book.quoteLaws_run`: what is promised of the quotes of a book.
-/

namespace DepthFeed

/-! ## Words of 128 bits -/

/-- The integers that are signed 128-bit words. -/
def IsSigned128 (n : Int) : Prop := -2 ^ 127 ≤ n ∧ n < 2 ^ 127

instance (n : Int) : Decidable (IsSigned128 n) := inferInstanceAs (Decidable (_ ∧ _))

/-- The signed 128-bit word for an exact result of `operation`. -/
def OverflowMode.wide (mode : OverflowMode) (operation : Operation) (exact : Int) :
    Except Fault Int :=
  match mode with
  | .silent => .ok (exact.bmod (2 ^ 128))
  | .trapping => if IsSigned128 exact then .ok exact else .error (.overflow operation)

/-- A word is its own result in both modes. -/
theorem OverflowMode.wide_of_isSigned128 {exact : Int} (h : IsSigned128 exact)
    (mode : OverflowMode) (operation : Operation) : mode.wide operation exact = .ok exact := by
  cases mode with
  | trapping => exact if_pos h
  | silent =>
    obtain ⟨hlow, hhigh⟩ := h
    exact congrArg Except.ok (Int.bmod_eq_of_le (by omega) (by omega))

theorem isSigned128_add (a b : Int64) : IsSigned128 (a.toInt + b.toInt) := by
  have ha := a.le_toInt
  have ha' := a.toInt_lt
  have hb := b.le_toInt
  have hb' := b.toInt_lt
  constructor <;> omega

namespace Book

variable {b : Book}

/-- The middle between the best bid and the best ask, from a sum in words of 128 bits. -/
def midIn (mode : OverflowMode) (b : Book) : Except Fault Price :=
  match b.inside? with
  | none => .ok .zero
  | some (bid, ask) => do
    let sum ← mode.wide .add (bid.count.toInt + ask.count.toInt)
    return ⟨Int64.ofInt (sum / 2)⟩

/-- The sum of two prices is a word, so the mode makes no difference. -/
theorem midIn_eq_mid (mode : OverflowMode) (b : Book) : b.midIn mode = .ok b.mid := by
  unfold midIn mid
  cases b.inside? with
  | none => rfl
  | some prices =>
    dsimp only
    rw [OverflowMode.wide_of_isSigned128 (isSigned128_add _ _)]
    rfl

/-! ## The best prices -/

theorem best_of_isEmpty {side : Side} (h : (b.ladder side).isEmpty) :
    b.best side = (.zero, .zero) := by
  rw [best_eq_quote, Ladder.best?_eq_none_iff.2 h]
  rfl

/-- A side that is not empty quotes its most aggressive level. -/
theorem WellFormed.exists_best (h : b.WellFormed) (side : Side)
    (hside : ¬ (b.ladder side).isEmpty) :
    ∃ level ∈ (b.ladder side).levels, (b.ladder side).best? = some level ∧
      b.best side = (level.price, level.quantity) ∧
      ∀ k ∈ (b.ladder side).levels, side.IsWithin level.price k.price := by
  rw [← Ladder.best?_eq_none_iff] at hside
  obtain ⟨level, hbest⟩ := Option.ne_none_iff_exists'.1 hside
  obtain ⟨hmem, hmost⟩ := (h side).best?_eq_some_iff.1 hbest
  refine ⟨level, hmem, hbest, ?_, hmost⟩
  rw [best_eq_quote, hbest]
  rfl

theorem WellFormed.quantity_eq_zero_iff (h : b.WellFormed) (side : Side) :
    (b.best side).2 = .zero ↔ (b.ladder side).isEmpty := by
  constructor
  · intro hzero
    by_contra hside
    obtain ⟨level, hmem, -, hbest, -⟩ := h.exists_best side hside
    have hpositive := (h side).toInt_pos hmem
    rw [hbest] at hzero
    rw [show level.quantity = .zero from hzero] at hpositive
    exact absurd hpositive (by decide)
  · intro hside
    rw [best_of_isEmpty hside]

theorem inside?_of_isEmpty (h : b.bids.isEmpty ∨ b.asks.isEmpty) : b.inside? = none := by
  rw [← Ladder.best?_eq_none_iff, ← Ladder.best?_eq_none_iff] at h
  unfold inside?
  obtain hbids | hasks := h
  · rw [hbids]
  · rw [hasks]
    cases b.bids.best? <;> rfl

theorem WellFormed.inside?_eq (h : b.WellFormed) (hbids : ¬ b.bids.isEmpty)
    (hasks : ¬ b.asks.isEmpty) : b.inside? = some ((b.best .buy).1, (b.best .sell).1) := by
  obtain ⟨bid, -, hbid, hbestBid, -⟩ := h.exists_best .buy hbids
  obtain ⟨ask, -, hask, hbestAsk, -⟩ := h.exists_best .sell hasks
  rw [hbestBid, hbestAsk]
  change b.bids.best? = some bid at hbid
  change b.asks.best? = some ask at hask
  rw [inside?, hbid, hask]

/-! ## Between the best prices -/

/-- What a book makes of its best bid and its best ask, in ticks. -/
structure InsideLaws (b : Book) (bid ask : Int) : Prop where
  mid_eq : b.mid.count.toInt = ⌊((bid + ask : Int) : ℚ) / 2⌋
  min_le_mid : min bid ask ≤ b.mid.count.toInt
  mid_le_max : b.mid.count.toInt ≤ max bid ask
  /-- The spread stops at the ends of the tick counts. -/
  spread_eq : b.spread.count.toInt =
    max Int64.minValue.toInt (min (ask - bid) Int64.maxValue.toInt)
  isCrossed_iff : b.isCrossed ↔ b.spread.count.toInt ≤ 0
  /-- The middle is below the ask, since it is rounded down. -/
  mid_of_not_isCrossed : ¬ b.isCrossed →
    bid ≤ b.mid.count.toInt ∧ b.mid.count.toInt < ask

theorem insideLaws {bid ask : Price} (h : b.inside? = some (bid, ask)) :
    b.InsideLaws bid.count.toInt ask.count.toInt := by
  have hmid : b.mid.count.toInt = (bid.count.toInt + ask.count.toInt) / 2 := by
    have hbid := bid.count.le_toInt
    have hbid' := bid.count.toInt_lt
    have hask := ask.count.le_toInt
    have hask' := ask.count.toInt_lt
    rw [mid, h]
    exact Int64.toInt_ofInt_of_le (by omega) (by omega)
  have hspread : b.spread.count.toInt =
      max Int64.minValue.toInt (min (ask.count.toInt - bid.count.toInt) Int64.maxValue.toInt) := by
    rw [spread, h]
    exact Ticks.toInt_clamp _
  have hcrossed : b.isCrossed ↔ ask.count.toInt ≤ bid.count.toInt := by
    rw [isCrossed, h, ← Int64.le_iff_toInt_le]
    exact decide_eq_true_iff
  have hleast : Int64.minValue.toInt < 0 := by decide
  have hgreatest : 0 < Int64.maxValue.toInt := by decide
  constructor
  case mid_eq =>
    rw [hmid]
    exact (Rat.floor_intCast_div_natCast _ 2).symm
  case min_le_mid => omega
  case mid_le_max => omega
  case spread_eq => exact hspread
  case isCrossed_iff =>
    rw [hcrossed, hspread]
    omega
  case mid_of_not_isCrossed =>
    rw [hcrossed]
    omega

/-! ## All quotes -/

/-- What is promised of the quotes of a book. -/
structure QuoteLaws (b : Book) : Prop where
  /-- No quantity is quoted for an empty side, and for no other one. -/
  quantity_eq_zero_iff (side : Side) : (b.best side).2 = .zero ↔ (b.ladder side).isEmpty
  best_of_isEmpty (side : Side) : (b.ladder side).isEmpty → b.best side = (.zero, .zero)
  /-- The best bid is the highest one. -/
  bestBid : ¬ b.bids.isEmpty → ∃ level ∈ b.bids.levels,
    b.best .buy = (level.price, level.quantity) ∧ ∀ k ∈ b.bids.levels, k.price ≤ level.price
  /-- The best ask is the lowest one. -/
  bestAsk : ¬ b.asks.isEmpty → ∃ level ∈ b.asks.levels,
    b.best .sell = (level.price, level.quantity) ∧ ∀ k ∈ b.asks.levels, level.price ≤ k.price
  oneSided : b.bids.isEmpty ∨ b.asks.isEmpty →
    b.mid = .zero ∧ b.spread = .zero ∧ b.isCrossed = false
  twoSided : ¬ b.bids.isEmpty → ¬ b.asks.isEmpty →
    b.InsideLaws (b.best .buy).1.count.toInt (b.best .sell).1.count.toInt
  /-- The middle is computed without a fault. Nothing else that is quoted takes a sum. -/
  midIn_eq (mode : OverflowMode) : b.midIn mode = .ok b.mid

theorem WellFormed.quoteLaws (h : b.WellFormed) : b.QuoteLaws where
  quantity_eq_zero_iff := h.quantity_eq_zero_iff
  best_of_isEmpty _ := Book.best_of_isEmpty
  bestBid hbids := by
    obtain ⟨level, hmem, -, hbest, hmost⟩ := h.exists_best .buy hbids
    exact ⟨level, hmem, hbest, hmost⟩
  bestAsk hasks := by
    obtain ⟨level, hmem, -, hbest, hmost⟩ := h.exists_best .sell hasks
    exact ⟨level, hmem, hbest, hmost⟩
  oneSided hside := by
    have hinside := inside?_of_isEmpty hside
    rw [mid, spread, isCrossed, hinside]
    exact ⟨rfl, rfl, rfl⟩
  twoSided hbids hasks := insideLaws (h.inside?_eq hbids hasks)
  midIn_eq mode := midIn_eq_mid mode b

/-- Whatever a book has followed, and wherever its prices are, it quotes its best levels and what lies
between them. -/
theorem quoteLaws_run (instrument : Instrument) (tradeRule : TradeRule) (changes : List Change) :
    ((empty instrument tradeRule).run changes).QuoteLaws :=
  ((wellFormed_empty instrument tradeRule).run changes).quoteLaws

/-- A bid at the lower end of the tick counts and an ask at the upper one are further apart than a
spread can be, with a middle just below zero. -/
example :
    let event (side : Side) (price : Int64) : Change :=
      .event ⟨1, 10, side, ⟨price⟩, ⟨1⟩, .update, ⟨7⟩, ⟨1⟩, none⟩
    let b := (empty ⟨7⟩ .countOnly).run
      [event .buy Int64.minValue, event .sell Int64.maxValue]
    b.mid = ⟨-1⟩ ∧ b.spread = .greatest ∧ b.isCrossed = false := by
  simp only [mid, spread, isCrossed, inside?, Ladder.best?_eq_head?_levels]
  decide +kernel

end Book

end DepthFeed

import DepthFeed.Proofs.Book.Depth
import DepthFeed.Proofs.Decimal.Quotient

/-!
# The imbalance of a book

The bid quantity in the best levels less the ask quantity, as a share of their sum, is a number
between -1 and 1, since all quantities are positive. It is rounded once, so what bounds or orders
the exact shares bounds or orders the imbalances.

* `share`, `abs_share_le_one`, `share_le_share`: exact shares.
* `Book.WellFormed.exists_imbalance`: the imbalance is the rounded share.
* `Book.WellFormed.total_eq_zero_iff`: which books have nothing in their best levels.
* `Book.ImbalanceLaws`, `Book.imbalance_run`: what is promised of the imbalance.
-/

namespace DepthFeed

/-! ## Exact shares -/

/-- The difference of two quantities as a share of their sum. -/
def share (bid ask : Int) : ℚ := (bid - ask : Int) / (bid + ask : Int)

section Shares

variable {bid ask bid' ask' : Int}

theorem abs_share_le_one (hbid : 0 ≤ bid) (hask : 0 ≤ ask) : |share bid ask| ≤ 1 := by
  have htotal : (0 : ℚ) ≤ (bid + ask : Int) := by exact_mod_cast Int.add_nonneg hbid hask
  have hexcess : |((bid - ask : Int) : ℚ)| ≤ (bid + ask : Int) := by
    rw [← Int.cast_abs, Int.cast_le, abs_le]
    omega
  rw [share, abs_div, abs_of_nonneg htotal]
  exact div_le_one_of_le₀ hexcess htotal

/-- More to buy and less to sell make a greater share. -/
theorem share_le_share (hbid' : 0 ≤ bid') (hask : 0 ≤ ask) (htotal : 0 < bid + ask)
    (htotal' : 0 < bid' + ask') (hbid : bid' ≤ bid) (hask' : ask ≤ ask') :
    share bid' ask' ≤ share bid ask := by
  have hcross : bid' * ask ≤ bid * ask' := mul_le_mul hbid hask' hask (hbid'.trans hbid)
  rw [share, share, div_le_div_iff₀ (by exact_mod_cast htotal') (by exact_mod_cast htotal)]
  norm_cast
  linarith

theorem share_nonneg (hask : 0 ≤ ask) (h : ask ≤ bid) : 0 ≤ share bid ask := by
  have hexcess : (0 : ℚ) ≤ (bid - ask : Int) := by exact_mod_cast Int.sub_nonneg_of_le h
  have htotal : (0 : ℚ) ≤ (bid + ask : Int) := by
    exact_mod_cast Int.add_nonneg (hask.trans h) hask
  exact div_nonneg hexcess htotal

theorem share_swap (bid ask : Int) : share ask bid = -share bid ask := by
  rw [share, share, ← neg_div, ← Int.cast_neg, Int.neg_sub, Int.add_comm]

theorem share_zero (hbid : bid ≠ 0) : share bid 0 = 1 := by
  rw [share, Int.sub_zero, Int.add_zero]
  exact div_self (by exact_mod_cast hbid)

end Shares

/-! ## Sides without levels -/

namespace Ladder

variable {side : Side} {b : Ladder side}

/-- The best levels hold nothing only where there are none of them. -/
theorem WellFormed.depthSum_eq_zero_iff (h : b.WellFormed) (n : Nat) :
    b.depthSum n = 0 ↔ n = 0 ∨ b.isEmpty := by
  rw [← best?_eq_none_iff, best?_eq_head?_levels, List.head?_eq_none_iff, depthSum_eq,
    ← List.take_eq_nil_iff]
  constructor
  · intro hzero
    cases hlevels : b.levels.take n with
    | nil => rfl
    | cons level rest =>
      have hmem : ∀ l ∈ level :: rest, l ∈ b.levels := fun l hl =>
        List.mem_of_mem_take (hlevels ▸ hl)
      have hlevel := h.toInt_pos (hmem level List.mem_cons_self)
      have hrest := h.sumOf_nonneg fun l hl => hmem l (List.mem_cons_of_mem level hl)
      rw [hlevels] at hzero
      change level.quantity.count.toInt + sumOf rest = 0 at hzero
      omega
  · intro hnone
    rw [hnone]
    rfl

end Ladder

/-! ## The imbalance -/

namespace Book

variable {b b' : Book} {n n' : Nat}

/-- What rests in the best levels of both sides together. -/
def total (b : Book) (n : Nat) : Int := b.bids.depthSum n + b.asks.depthSum n

theorem WellFormed.bids (h : b.WellFormed) : b.bids.WellFormed := h .buy

theorem WellFormed.asks (h : b.WellFormed) : b.asks.WellFormed := h .sell

theorem WellFormed.total_nonneg (h : b.WellFormed) (n : Nat) : 0 ≤ b.total n :=
  Int.add_nonneg (h.bids.depthSum_nonneg n) (h.asks.depthSum_nonneg n)

theorem WellFormed.total_eq_zero_iff (h : b.WellFormed) (n : Nat) :
    b.total n = 0 ↔ n = 0 ∨ (b.bids.isEmpty ∧ b.asks.isEmpty) := by
  have hbids := h.bids.depthSum_nonneg n
  have hasks := h.asks.depthSum_nonneg n
  have hboth : b.total n = 0 ↔ b.bids.depthSum n = 0 ∧ b.asks.depthSum n = 0 := by
    unfold total
    omega
  rw [hboth, h.bids.depthSum_eq_zero_iff, h.asks.depthSum_eq_zero_iff, or_and_left]

theorem imbalance_eq_zero (h : b.total n = 0) : b.imbalance n = .zero := if_pos h

/-- Where something rests, the imbalance is a quotient of two decimals, the share rounded to 28
places. -/
theorem WellFormed.exists_imbalance (h : b.WellFormed) (hne : b.total n ≠ 0)
    (hsize : b.total n < 2 ^ 96) :
    ∃ difference total,
      Decimal.ofParts? (b.bids.depthSum n - b.asks.depthSum n) 0 = some difference ∧
        Decimal.ofParts? (b.total n) 0 = some total ∧ total.mantissa ≠ 0 ∧
        difference.div? total = some (b.imbalance n) ∧
        Decimal.IsQuotient (share (b.bids.depthSum n) (b.asks.depthSum n)) (b.imbalance n) := by
  have hbids := h.bids.depthSum_nonneg n
  have hasks := h.asks.depthSum_nonneg n
  have hexcess : |b.bids.depthSum n - b.asks.depthSum n| < 2 ^ 96 := by
    unfold total at hsize
    rw [abs_lt]
    omega
  have htotal : |b.total n| < 2 ^ 96 := by
    unfold total at hsize ⊢
    rw [abs_lt]
    omega
  obtain ⟨difference, hdifference, hexcess', hscale⟩ :=
    Decimal.exists_ofParts? (Nat.zero_le 28) hexcess
  obtain ⟨whole, hwhole, htotal', hscale'⟩ := Decimal.exists_ofParts? (Nat.zero_le 28) htotal
  have hdivisor : whole.mantissa ≠ 0 := htotal' ▸ hne
  have hshare : difference.value / whole.value =
      share (b.bids.depthSum n) (b.asks.depthSum n) := by
    rw [Decimal.value, Decimal.value, hexcess', htotal', hscale, hscale', pow_zero, div_one,
      div_one, share, total]
  have hfits : |difference.value / whole.value| * 10 ^ 28 < Decimal.limit := by
    have hone := abs_share_le_one hbids hasks
    rw [hshare, Decimal.limit]
    linarith
  obtain ⟨q, hq, hquotient⟩ := Decimal.exists_div? hdivisor hfits
  have himbalance : b.imbalance n = q := by
    unfold total at hne hwhole
    simp only [imbalance, if_neg hne, hdifference, hwhole, hq, Option.getD_some]
  rw [hshare] at hquotient
  exact ⟨difference, whole, hdifference, hwhole, hdivisor, himbalance ▸ hq, himbalance ▸ hquotient⟩

/-- What is promised of the imbalance of the best `n` levels. -/
structure ImbalanceLaws (b : Book) (n : Nat) : Prop where
  /-- Nothing rests in the best levels only if there are none. -/
  total_eq_zero_iff : b.total n = 0 ↔ n = 0 ∨ (b.bids.isEmpty ∧ b.asks.isEmpty)
  eq_zero : b.total n = 0 → b.imbalance n = .zero
  /-- Where something rests, the imbalance comes from a division, by a number that is not zero. -/
  divides : b.total n ≠ 0 → ∃ difference total,
    Decimal.ofParts? (b.bids.depthSum n - b.asks.depthSum n) 0 = some difference ∧
      Decimal.ofParts? (b.total n) 0 = some total ∧ total.mantissa ≠ 0 ∧
      difference.div? total = some (b.imbalance n)
  abs_le_one : |(b.imbalance n).value| ≤ 1
  dist_le : b.total n ≠ 0 →
    |(b.imbalance n).value - share (b.bids.depthSum n) (b.asks.depthSum n)| ≤ 5 / 10 ^ 29
  nonneg : b.asks.depthSum n ≤ b.bids.depthSum n → 0 ≤ (b.imbalance n).value
  nonpos : b.bids.depthSum n ≤ b.asks.depthSum n → (b.imbalance n).value ≤ 0
  eq_one : b.total n ≠ 0 → b.asks.depthSum n = 0 → (b.imbalance n).value = 1
  eq_neg_one : b.total n ≠ 0 → b.bids.depthSum n = 0 → (b.imbalance n).value = -1

/-- The imbalance is a rounded share, also where nothing rests: then both are zero. -/
theorem WellFormed.value_imbalance_cases (h : b.WellFormed) (hsize : b.total n < 2 ^ 96) :
    (b.total n = 0 ∧ (b.imbalance n).value = 0) ∨
      Decimal.IsQuotient (share (b.bids.depthSum n) (b.asks.depthSum n)) (b.imbalance n) := by
  by_cases hne : b.total n = 0
  · refine Or.inl ⟨hne, ?_⟩
    rw [imbalance_eq_zero hne]
    norm_num [Decimal.value, Decimal.zero]
  · obtain ⟨-, -, -, -, -, -, hquotient⟩ := h.exists_imbalance hne hsize
    exact Or.inr hquotient

theorem WellFormed.imbalanceLaws (h : b.WellFormed) (hsize : b.total n < 2 ^ 96) :
    b.ImbalanceLaws n := by
  have hbids := h.bids.depthSum_nonneg n
  have hasks := h.asks.depthSum_nonneg n
  have hcases := h.value_imbalance_cases hsize
  have hshare := abs_le.1 (abs_share_le_one hbids hasks)
  constructor
  case total_eq_zero_iff => exact h.total_eq_zero_iff n
  case eq_zero => exact imbalance_eq_zero
  case divides =>
    intro hne
    obtain ⟨difference, total, hdifference, htotal, hdivisor, hquotient, -⟩ :=
      h.exists_imbalance hne hsize
    exact ⟨difference, total, hdifference, htotal, hdivisor, hquotient⟩
  case abs_le_one =>
    obtain ⟨-, hzero⟩ | hquotient := hcases
    · rw [hzero]
      norm_num
    · have hlow := hquotient.intCast_le (k := -1) (by exact_mod_cast hshare.1)
      have hhigh := hquotient.le_intCast (k := 1) (by exact_mod_cast hshare.2)
      exact abs_le.2 ⟨by exact_mod_cast hlow, by exact_mod_cast hhigh⟩
  case dist_le =>
    intro hne
    exact (hcases.resolve_left fun hzero => hne hzero.1).dist_le
  case nonneg =>
    intro hmore
    obtain ⟨-, hzero⟩ | hquotient := hcases
    · exact hzero.ge
    · exact_mod_cast hquotient.intCast_le (k := 0) (by exact_mod_cast share_nonneg hasks hmore)
  case nonpos =>
    intro hless
    obtain ⟨-, hzero⟩ | hquotient := hcases
    · exact hzero.le
    · have hnonpos : share (b.bids.depthSum n) (b.asks.depthSum n) ≤ 0 := by
        rw [share_swap, Left.neg_nonpos_iff]
        exact share_nonneg hbids hless
      exact_mod_cast hquotient.le_intCast (k := 0) (by exact_mod_cast hnonpos)
  case eq_one =>
    intro hne hnone
    have hquotient := hcases.resolve_left fun hzero => hne hzero.1
    rw [total, hnone, Int.add_zero] at hne
    rw [hnone, share_zero hne] at hquotient
    exact_mod_cast hquotient.value_eq_of_eq_intCast (k := 1) (by norm_num)
  case eq_neg_one =>
    intro hne hnone
    have hquotient := hcases.resolve_left fun hzero => hne hzero.1
    rw [total, hnone, Int.zero_add] at hne
    rw [hnone, share_swap, share_zero hne] at hquotient
    exact_mod_cast hquotient.value_eq_of_eq_intCast (k := -1) (by norm_num)

/-- More to buy and less to sell in the best levels make no smaller imbalance. -/
theorem WellFormed.imbalance_le_imbalance (h : b.WellFormed) (h' : b'.WellFormed)
    (hsize : b.total n < 2 ^ 96) (hsize' : b'.total n' < 2 ^ 96) (hne : b.total n ≠ 0)
    (hne' : b'.total n' ≠ 0) (hbids : b'.bids.depthSum n' ≤ b.bids.depthSum n)
    (hasks : b.asks.depthSum n ≤ b'.asks.depthSum n') :
    (b'.imbalance n').value ≤ (b.imbalance n).value := by
  obtain ⟨-, -, -, -, -, -, hquotient⟩ := h.exists_imbalance hne hsize
  obtain ⟨-, -, -, -, -, -, hquotient'⟩ := h'.exists_imbalance hne' hsize'
  have htotal := h.total_nonneg n
  have htotal' := h'.total_nonneg n'
  refine hquotient'.value_le_value hquotient (share_le_share (h'.bids.depthSum_nonneg n')
    (h.asks.depthSum_nonneg n) ?_ ?_ hbids hasks)
  · exact lt_of_le_of_ne htotal hne.symm
  · exact lt_of_le_of_ne htotal' hne'.symm

/-- Whatever two books have followed, their imbalances are rounded shares of what rests in their best
levels, and in the order of it, as long as that is below `2 ^ 96` ticks. -/
theorem imbalance_run (instrument : Instrument) (tradeRule : TradeRule) (changes : List Change)
    (n : Nat) (hsize : ((empty instrument tradeRule).run changes).total n < 2 ^ 96) :
    let b := (empty instrument tradeRule).run changes
    b.ImbalanceLaws n ∧
      ∀ (instrument' : Instrument) (tradeRule' : TradeRule) (changes' : List Change) (n' : Nat),
        let b' := (empty instrument' tradeRule').run changes'
        b'.total n' < 2 ^ 96 → b.total n ≠ 0 → b'.total n' ≠ 0 →
          b'.bids.depthSum n' ≤ b.bids.depthSum n → b.asks.depthSum n ≤ b'.asks.depthSum n' →
            (b'.imbalance n').value ≤ (b.imbalance n).value := by
  have hwell := (wellFormed_empty instrument tradeRule).run changes
  refine ⟨hwell.imbalanceLaws hsize, ?_⟩
  intro instrument' tradeRule' changes' n' b' hsize' hne hne' hbids hasks
  have hwell' := (wellFormed_empty instrument' tradeRule').run changes'
  exact hwell.imbalance_le_imbalance hwell' hsize hsize' hne hne' hbids hasks

/-- A book whose bids are more together than one quantity holds, and one with less to buy and more to
sell; neither share has finitely many places. -/
theorem imbalance_run_two_books :
    let event (side : Side) (price quantity : Int64) : Change :=
      .event ⟨1, 10, side, ⟨price⟩, ⟨quantity⟩, .update, ⟨7⟩, ⟨1⟩, none⟩
    let changes : List Change :=
      [event .buy 99 6000000000000000000, event .buy 100 6000000000000000000,
        event .sell 101 5000000000000000000]
    let changes' : List Change := [event .buy 100 6000000000000000000,
        event .sell 101 5000000000000000000, event .sell 102 8000000000000000000]
    let b := (empty ⟨7⟩ .countOnly).run changes
    let b' := (empty ⟨7⟩ .countOnly).run changes'
    b.bids.depthSum 5 = 12000000000000000000 ∧ b.total 5 < 2 ^ 96 ∧ b.ImbalanceLaws 5 ∧
      (b.imbalance 5).shortText = "0.4117647058823529411764705882" ∧
      b'.total 5 < 2 ^ 96 ∧ b.total 5 ≠ 0 ∧ b'.total 5 ≠ 0 ∧
      b'.bids.depthSum 5 ≤ b.bids.depthSum 5 ∧ b.asks.depthSum 5 ≤ b'.asks.depthSum 5 ∧
      (b'.imbalance 5).shortText = "-0.3684210526315789473684210526" ∧
      (b'.imbalance 5).value ≤ (b.imbalance 5).value := by
  intro event changes changes' b b'
  obtain ⟨hbids, hasks, hbids', hasks'⟩ :
      b.bids.depthSum 5 = 12000000000000000000 ∧ b.asks.depthSum 5 = 5000000000000000000 ∧
        b'.bids.depthSum 5 = 6000000000000000000 ∧ b'.asks.depthSum 5 = 13000000000000000000 := by
    simp only [Ladder.depthSum_eq]
    decide +kernel
  have htext : (b.imbalance 5).shortText = "0.4117647058823529411764705882" := by
    rw [imbalance, hbids, hasks]
    decide +kernel
  have htext' : (b'.imbalance 5).shortText = "-0.3684210526315789473684210526" := by
    rw [imbalance, hbids', hasks']
    decide +kernel
  have hsize : b.total 5 < 2 ^ 96 := by norm_num [total, hbids, hasks]
  have hsize' : b'.total 5 < 2 ^ 96 := by norm_num [total, hbids', hasks']
  have hne : b.total 5 ≠ 0 := by norm_num [total, hbids, hasks]
  have hne' : b'.total 5 ≠ 0 := by norm_num [total, hbids', hasks']
  have hless : b'.bids.depthSum 5 ≤ b.bids.depthSum 5 := by norm_num [hbids, hbids']
  have hmore : b.asks.depthSum 5 ≤ b'.asks.depthSum 5 := by norm_num [hasks, hasks']
  obtain ⟨hlaws, horder⟩ := imbalance_run ⟨7⟩ .countOnly changes 5 hsize
  exact ⟨hbids, hsize, hlaws, htext, hsize', hne, hne', hless, hmore, htext',
    horder ⟨7⟩ .countOnly changes' 5 hsize' hne hne' hless hmore⟩

end Book

end DepthFeed

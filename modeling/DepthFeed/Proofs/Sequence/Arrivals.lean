import Mathlib.Algebra.BigOperators.Group.Finset.Basic
import Mathlib.Data.Finset.Dedup
import Mathlib.Data.List.Induction
import DepthFeed.Proofs.Sequence.History

/-!
# Streams whose numbers ascend

A history that is nothing but arrivals, where the numbers of every stream go up. The gaps that are
opened then tile the numbers that never arrived.

* `numbersOn`: the numbers of one stream, and `extent`: how many numbers lie from the first to the last.
* `IsMissed`: a number between the first and the last one that never arrived.
* `mem_openedBy_contains_iff`: an arrival opens a gap of just the numbers after the previous one.
* `isMissed_iff_exists_gap`, `openedGaps_disjoint`: the gaps hold the missed numbers, each one once.
* `totalDistance_add_length`: what the gaps skip and what arrived make up the extents.
-/

namespace DepthFeed

theorem toInt_add_one_of_lt {a b : Int64} (h : a < b) : (a + 1).toInt = a.toInt + 1 := by
  rw [Int64.lt_iff_toInt_lt] at h
  have hb := b.toInt_lt
  have ha := a.le_toInt
  rw [Int64.toInt_add, Int64.toInt_one]
  apply Int.bmod_eq_of_le <;> omega

namespace SequenceMonitor

/-- A number that arrives on a stream. -/
structure Arrival where
  stream : StreamId
  sequence : Int64
deriving DecidableEq, Repr

def Arrival.operation (a : Arrival) : Operation := .observe a.stream a.sequence

def watch (arrivals : List Arrival) : List Operation := arrivals.map Arrival.operation

/-! ## The numbers of a stream -/

/-- The numbers that arrived on a stream, in the order of their arrival. -/
def numbersOn (stream : StreamId) (arrivals : List Arrival) : List Int64 :=
  (arrivals.filter fun a => a.stream = stream).map Arrival.sequence

def streamsOf (arrivals : List Arrival) : Finset StreamId := (arrivals.map Arrival.stream).toFinset

/-- How many numbers there are from the first one of a stream to its last one. -/
def extent (stream : StreamId) (arrivals : List Arrival) : Nat :=
  match (numbersOn stream arrivals).head?, (numbersOn stream arrivals).getLast? with
  | some first, some last => (last.toInt - first.toInt + 1).toNat
  | _, _ => 0

/-- The numbers of every stream go up. -/
def Ascending (arrivals : List Arrival) : Prop :=
  ∀ stream, (numbersOn stream arrivals).Pairwise (· < ·)

/-- On every stream, the difference of the last number and the first one is a signed word. -/
def Narrow (arrivals : List Arrival) : Prop :=
  ∀ stream first last, (numbersOn stream arrivals).head? = some first →
    (numbersOn stream arrivals).getLast? = some last → IsSigned64 (last.toInt - first.toInt)

/-- A number strictly between the first and the last one of a stream never arrived on it. -/
def IsMissed (stream : StreamId) (sequence : Int64) (arrivals : List Arrival) : Prop :=
  ∃ first last, (numbersOn stream arrivals).head? = some first ∧
    (numbersOn stream arrivals).getLast? = some last ∧
    first < sequence ∧ sequence < last ∧ sequence ∉ numbersOn stream arrivals

variable {arrivals : List Arrival} {a : Arrival} {stream : StreamId}

theorem watch_append (earlier later : List Arrival) :
    watch (earlier ++ later) = watch earlier ++ watch later := List.map_append

@[simp]
theorem numbersOn_nil (stream : StreamId) : numbersOn stream [] = [] := rfl

theorem numbersOn_append_singleton (stream : StreamId) (arrivals : List Arrival) (a : Arrival) :
    numbersOn stream (arrivals ++ [a]) =
      numbersOn stream arrivals ++ if a.stream = stream then [a.sequence] else [] := by
  unfold numbersOn
  rw [List.filter_append, List.map_append]
  by_cases hstream : a.stream = stream <;> simp [hstream]

theorem numbersOn_append_own (arrivals : List Arrival) (a : Arrival) :
    numbersOn a.stream (arrivals ++ [a]) = numbersOn a.stream arrivals ++ [a.sequence] := by
  rw [numbersOn_append_singleton, if_pos rfl]

theorem numbersOn_append_other (h : a.stream ≠ stream) (arrivals : List Arrival) :
    numbersOn stream (arrivals ++ [a]) = numbersOn stream arrivals := by
  rw [numbersOn_append_singleton, if_neg h, List.append_nil]

theorem lastOn_watch (stream : StreamId) (arrivals : List Arrival) :
    lastOn stream (watch arrivals) = (numbersOn stream arrivals).getLast? := by
  induction arrivals using List.reverseRecOn with
  | nil => rfl
  | append_singleton arrivals a ih =>
    rw [watch_append]
    show lastOn stream (watch arrivals ++ [a.operation]) = _
    rw [lastOn_append_singleton, numbersOn_append_singleton, ih]
    by_cases hstream : a.stream = stream
    · rw [if_pos hstream, if_pos (show a.operation.Concerns stream from hstream),
        List.getLast?_concat]
      rfl
    · rw [if_neg hstream, if_neg (show ¬ a.operation.Concerns stream from hstream),
        List.append_nil]

theorem Ascending.of_append_singleton (h : Ascending (arrivals ++ [a])) : Ascending arrivals := by
  intro stream
  have hnumbers := h stream
  rw [numbersOn_append_singleton] at hnumbers
  exact (List.pairwise_append.1 hnumbers).1

/-- A number that arrives is above all earlier ones of its stream. -/
theorem Ascending.lt_of_mem (h : Ascending (arrivals ++ [a])) {earlier : Int64}
    (hearlier : earlier ∈ numbersOn a.stream arrivals) : earlier < a.sequence := by
  have hnumbers := h a.stream
  rw [numbersOn_append_own] at hnumbers
  exact (List.pairwise_append.1 hnumbers).2.2 earlier hearlier a.sequence List.mem_cons_self

/-- No number of a stream is above the last one. -/
theorem Ascending.le_last (h : Ascending arrivals) {last : Int64}
    (hlast : (numbersOn stream arrivals).getLast? = some last) {sequence : Int64}
    (hmem : sequence ∈ numbersOn stream arrivals) : sequence ≤ last := by
  obtain ⟨earlier, hsplit⟩ := List.getLast?_eq_some_iff.1 hlast
  have hnumbers := h stream
  rw [hsplit] at hnumbers hmem
  rcases List.mem_append.1 hmem with hearlier | hself
  · exact Int64.le_of_lt
      ((List.pairwise_append.1 hnumbers).2.2 sequence hearlier last List.mem_cons_self)
  · rw [List.mem_singleton.1 hself]
    exact Int64.le_refl last

/-! ## The gap that an arrival opens -/

/-- The gaps that some arrivals open, oldest first. -/
def openedGaps (arrivals : List Arrival) : List Gap := gapsSinceReset (watch arrivals)

theorem openedGaps_append_singleton (arrivals : List Arrival) (a : Arrival) :
    openedGaps (arrivals ++ [a]) =
      openedGaps arrivals ++ (openedBy (watch arrivals) a.operation).toList := by
  unfold openedGaps
  rw [watch_append]
  exact (gapsSinceReset_append_singleton (watch arrivals) a.operation).trans
    (if_neg Operation.noConfusion)

/-- An arrival opens a gap of its own stream that ends with it, and starts after the previous one. -/
theorem openedBy_of_last {previous : Int64}
    (hlast : (numbersOn a.stream arrivals).getLast? = some previous) :
    openedBy (watch arrivals) a.operation =
      if a.sequence = previous + 1 then none
      else some { stream := a.stream, expected := previous + 1, received := a.sequence } := by
  unfold Arrival.operation openedBy
  dsimp only
  rw [lastOn_watch, hlast, Option.bind_some]

theorem openedBy_of_first (hfirst : numbersOn a.stream arrivals = []) :
    openedBy (watch arrivals) a.operation = none := by
  unfold Arrival.operation openedBy
  dsimp only
  rw [lastOn_watch, hfirst]
  rfl

/-- The numbers in the gap that an arrival opens are those after the previous number. -/
theorem mem_openedBy_contains_iff {previous : Int64}
    (hlast : (numbersOn a.stream arrivals).getLast? = some previous)
    (hlt : previous < a.sequence) (sequence : Int64) :
    (∃ gap ∈ openedBy (watch arrivals) a.operation, gap.Contains sequence) ↔
      previous < sequence ∧ sequence < a.sequence := by
  have hnext := toInt_add_one_of_lt hlt
  rw [openedBy_of_last hlast]
  by_cases hsuccessor : a.sequence = previous + 1
  · rw [if_pos hsuccessor, hsuccessor]
    simp only [Int64.lt_iff_toInt_lt, hnext]
    constructor
    · rintro ⟨gap, hgap, -⟩
      cases hgap
    · rintro ⟨hlow, hhigh⟩
      omega
  · rw [if_neg hsuccessor]
    simp only [Option.mem_some_iff, exists_eq_left', Gap.Contains, Int64.lt_iff_toInt_lt,
      Int64.le_iff_toInt_le, hnext]
    omega

/-- The gap that an arrival opens skips all numbers after the previous one but the last. -/
theorem totalDistance_openedBy {previous : Int64}
    (hlast : (numbersOn a.stream arrivals).getLast? = some previous)
    (hlt : previous < a.sequence) (hword : a.sequence.toInt - previous.toInt < 2 ^ 63) :
    (totalDistance (openedBy (watch arrivals) a.operation).toList : Int) + 1 =
      a.sequence.toInt - previous.toInt := by
  have hnext := toInt_add_one_of_lt hlt
  rw [openedBy_of_last hlast]
  by_cases hsuccessor : a.sequence = previous + 1
  · rw [if_pos hsuccessor, hsuccessor, hnext, Option.toList_none]
    simp [totalDistance]
  · have hne : a.sequence.toInt ≠ previous.toInt + 1 := by
      rw [← hnext]
      exact fun heq => hsuccessor (Int64.toInt_inj.1 heq)
    rw [Int64.lt_iff_toInt_lt] at hlt
    rw [if_neg hsuccessor, Option.toList_some]
    simp only [totalDistance, List.map_cons, List.map_nil, List.sum_cons, List.sum_nil,
      Gap.distance, hnext]
    omega

/-! ## Missed numbers -/

/-- An arrival leaves missed what was missed, and the numbers after the previous one. -/
theorem isMissed_append_own {previous : Int64} (hascending : Ascending (arrivals ++ [a]))
    (hlast : (numbersOn a.stream arrivals).getLast? = some previous) (sequence : Int64) :
    IsMissed a.stream sequence (arrivals ++ [a]) ↔
      IsMissed a.stream sequence arrivals ∨ (previous < sequence ∧ sequence < a.sequence) := by
  have hprevious : previous ∈ numbersOn a.stream arrivals := List.mem_of_getLast? hlast
  have hlt : previous < a.sequence := hascending.lt_of_mem hprevious
  obtain ⟨first, hfirst⟩ : ∃ first, (numbersOn a.stream arrivals).head? = some first := by
    cases hnumbers : numbersOn a.stream arrivals with
    | nil =>
      rw [hnumbers] at hprevious
      cases hprevious
    | cons first later => exact ⟨first, rfl⟩
  have hle : ∀ {other}, other ∈ numbersOn a.stream arrivals → other ≤ previous :=
    fun hother => hascending.of_append_singleton.le_last hlast hother
  have hfirst_le := hle (List.mem_of_head? hfirst)
  unfold IsMissed
  rw [numbersOn_append_own, List.head?_append, hfirst, List.getLast?_concat, hlast]
  simp only [Option.some_or, Option.some.injEq, List.mem_append,
    List.mem_singleton, not_or]
  constructor
  · rintro ⟨_, _, rfl, rfl, hlow, hhigh, hnot, hne⟩
    by_cases hbefore : sequence < previous
    · exact Or.inl ⟨first, previous, rfl, rfl, hlow, hbefore, hnot⟩
    · right
      have hother : sequence ≠ previous := by
        rintro rfl
        exact hnot hprevious
      refine ⟨?_, hhigh⟩
      rw [Int64.lt_iff_toInt_lt] at hbefore ⊢
      rw [ne_eq, ← Int64.toInt_inj] at hother
      omega
  · rintro (⟨_, _, rfl, rfl, hlow, hhigh, hnot⟩ | ⟨hlow, hhigh⟩)
    · have hbelow := Int64.lt_trans hhigh hlt
      exact ⟨first, a.sequence, rfl, rfl, hlow, hbelow, hnot, Int64.ne_of_lt hbelow⟩
    · refine ⟨first, a.sequence, rfl, rfl, Int64.lt_of_le_of_lt hfirst_le hlow, hhigh, ?_,
        Int64.ne_of_lt hhigh⟩
      intro hmem
      exact Int64.lt_irrefl (Int64.lt_of_le_of_lt (hle hmem) hlow)

theorem isMissed_append_first (hfirst : numbersOn a.stream arrivals = []) (sequence : Int64) :
    ¬ IsMissed a.stream sequence (arrivals ++ [a]) := by
  unfold IsMissed
  rw [numbersOn_append_own, hfirst]
  rintro ⟨first, last, hhead, hgetLast, hlow, hhigh, -⟩
  obtain rfl := Option.some.inj hhead
  obtain rfl := Option.some.inj hgetLast
  exact Int64.lt_irrefl (Int64.lt_trans hlow hhigh)

theorem isMissed_append_other (h : a.stream ≠ stream) (sequence : Int64) :
    IsMissed stream sequence (arrivals ++ [a]) ↔ IsMissed stream sequence arrivals := by
  unfold IsMissed
  rw [numbersOn_append_other h]

theorem stream_of_mem_openedBy {gap : Gap} (h : gap ∈ openedBy (watch arrivals) a.operation) :
    gap.stream = a.stream := by
  cases hlast : (numbersOn a.stream arrivals).getLast? with
  | none =>
    rw [openedBy_of_first (List.getLast?_eq_none_iff.1 hlast)] at h
    cases h
  | some previous =>
    rw [openedBy_of_last hlast] at h
    split at h
    · cases h
    · obtain rfl := Option.mem_some_iff.1 h
      rfl

/-- The opened gaps hold exactly the missed numbers. -/
theorem isMissed_iff_exists_gap (hascending : Ascending arrivals) (stream : StreamId)
    (sequence : Int64) :
    IsMissed stream sequence arrivals ↔
      ∃ gap ∈ openedGaps arrivals, gap.stream = stream ∧ gap.Contains sequence := by
  induction arrivals using List.reverseRecOn with
  | nil =>
    constructor
    · rintro ⟨first, last, hhead, -⟩
      cases hhead
    · rintro ⟨gap, hgap, -⟩
      cases hgap
  | append_singleton arrivals a ih =>
    specialize ih hascending.of_append_singleton
    simp only [openedGaps_append_singleton, List.mem_append, Option.mem_toList, ← Option.mem_def,
      or_and_right, exists_or, ← ih]
    by_cases hstream : a.stream = stream
    · subst hstream
      have hown : (∃ gap ∈ openedBy (watch arrivals) a.operation,
            gap.stream = a.stream ∧ gap.Contains sequence) ↔
          ∃ gap ∈ openedBy (watch arrivals) a.operation, gap.Contains sequence := by
        refine exists_congr fun gap => and_congr_right fun hgap => ?_
        exact and_iff_right (stream_of_mem_openedBy hgap)
      rw [hown]
      cases hlast : (numbersOn a.stream arrivals).getLast? with
      | none =>
        have hfirst := List.getLast?_eq_none_iff.1 hlast
        have hnone : ¬ IsMissed a.stream sequence arrivals := by
          rintro ⟨first, last, hhead, -⟩
          rw [hfirst] at hhead
          cases hhead
        rw [openedBy_of_first hfirst]
        simp [isMissed_append_first hfirst, hnone]
      | some previous =>
        have hlt := hascending.lt_of_mem (List.mem_of_getLast? hlast)
        rw [isMissed_append_own hascending hlast, mem_openedBy_contains_iff hlast hlt]
    · rw [isMissed_append_other hstream]
      refine (or_iff_left ?_).symm
      rintro ⟨gap, hgap, hother, -⟩
      exact hstream ((stream_of_mem_openedBy hgap).symm.trans hother)

/-- Two gaps skip no number of the same stream. -/
def Apart (g g' : Gap) : Prop :=
  g.stream = g'.stream → ∀ sequence, ¬ (g.Contains sequence ∧ g'.Contains sequence)

theorem openedGaps_disjoint (hascending : Ascending arrivals) :
    (openedGaps arrivals).Pairwise Apart := by
  induction arrivals using List.reverseRecOn with
  | nil => exact List.Pairwise.nil
  | append_singleton arrivals a ih =>
    have hearlier := hascending.of_append_singleton
    rw [openedGaps_append_singleton, List.pairwise_append]
    refine ⟨ih hearlier, ?_, ?_⟩
    · cases openedBy (watch arrivals) a.operation with
      | none => exact List.Pairwise.nil
      | some gap => exact List.pairwise_singleton _ _
    · rintro gap hgap gap' hgap' hstream sequence ⟨hin, hin'⟩
      rw [Option.mem_toList] at hgap'
      rw [stream_of_mem_openedBy hgap'] at hstream
      -- What an earlier gap skips is below the previous number, what the new one skips above it.
      obtain ⟨first, previous, -, hlast, -, hbelow, -⟩ :=
        (isMissed_iff_exists_gap hearlier a.stream sequence).2 ⟨gap, hgap, hstream, hin⟩
      have hlt := hascending.lt_of_mem (List.mem_of_getLast? hlast)
      obtain ⟨habove, -⟩ :=
        (mem_openedBy_contains_iff hlast hlt sequence).1 ⟨gap', hgap', hin'⟩
      exact Int64.lt_irrefl (Int64.lt_trans hbelow habove)

/-! ## Counting -/

theorem streamsOf_append_singleton (arrivals : List Arrival) (a : Arrival) :
    streamsOf (arrivals ++ [a]) = insert a.stream (streamsOf arrivals) := by
  ext stream
  simp [streamsOf]

theorem mem_streamsOf_iff (stream : StreamId) (arrivals : List Arrival) :
    stream ∈ streamsOf arrivals ↔ numbersOn stream arrivals ≠ [] := by
  simp [streamsOf, numbersOn, List.filter_eq_nil_iff]

theorem extent_append_other (h : a.stream ≠ stream) (arrivals : List Arrival) :
    extent stream (arrivals ++ [a]) = extent stream arrivals := by
  unfold extent
  rw [numbersOn_append_other h]

theorem extent_append_first (hfirst : numbersOn a.stream arrivals = []) :
    extent a.stream (arrivals ++ [a]) = 1 := by
  unfold extent
  rw [numbersOn_append_own, hfirst]
  simp

/-- A number that follows others makes the extent of its stream longer by what lies between. -/
theorem extent_append_own {previous : Int64} (hascending : Ascending (arrivals ++ [a]))
    (hlast : (numbersOn a.stream arrivals).getLast? = some previous) :
    (extent a.stream (arrivals ++ [a]) : Int) =
      extent a.stream arrivals + (a.sequence.toInt - previous.toInt) := by
  have hprevious : previous ∈ numbersOn a.stream arrivals := List.mem_of_getLast? hlast
  have hlt : previous < a.sequence := hascending.lt_of_mem hprevious
  unfold extent
  rw [numbersOn_append_own, List.getLast?_concat, List.head?_append, hlast]
  cases hhead : (numbersOn a.stream arrivals).head? with
  | none =>
    rw [List.head?_eq_none_iff.1 hhead] at hprevious
    cases hprevious
  | some first =>
    have hfirst := hascending.of_append_singleton.le_last hlast (List.mem_of_head? hhead)
    rw [Int64.le_iff_toInt_le] at hfirst
    rw [Int64.lt_iff_toInt_lt] at hlt
    rw [Option.some_or]
    dsimp only
    omega

theorem Narrow.of_append_singleton (hascending : Ascending (arrivals ++ [a]))
    (h : Narrow (arrivals ++ [a])) : Narrow arrivals := by
  intro stream first last hhead hlast
  by_cases hstream : a.stream = stream
  · subst hstream
    have hwide := h a.stream first a.sequence
      (by rw [numbersOn_append_own, List.head?_append, hhead, Option.some_or])
      (by rw [numbersOn_append_own, List.getLast?_concat])
    have hlt := hascending.lt_of_mem (List.mem_of_getLast? hlast)
    have hle := hascending.of_append_singleton.le_last hlast (List.mem_of_head? hhead)
    rw [Int64.lt_iff_toInt_lt] at hlt
    rw [Int64.le_iff_toInt_le] at hle
    unfold IsSigned64 at hwide ⊢
    omega
  · rw [← numbersOn_append_other hstream] at hhead hlast
    exact h stream first last hhead hlast

/-- The step from the previous number of a stream to the next one is a signed word. -/
theorem Narrow.step_lt {previous : Int64} (hascending : Ascending (arrivals ++ [a]))
    (h : Narrow (arrivals ++ [a]))
    (hlast : (numbersOn a.stream arrivals).getLast? = some previous) :
    a.sequence.toInt - previous.toInt < 2 ^ 63 := by
  cases hhead : (numbersOn a.stream arrivals).head? with
  | none =>
    rw [List.head?_eq_none_iff.1 hhead] at hlast
    cases hlast
  | some first =>
    have hwide := h a.stream first a.sequence
      (by rw [numbersOn_append_own, List.head?_append, hhead, Option.some_or])
      (by rw [numbersOn_append_own, List.getLast?_concat])
    have hle := hascending.of_append_singleton.le_last hlast (List.mem_of_head? hhead)
    rw [Int64.le_iff_toInt_le] at hle
    unfold IsSigned64 at hwide
    omega

/-- What the opened gaps skip and the numbers that arrived make up the extents of the streams. -/
theorem totalDistance_add_length (hascending : Ascending arrivals) (hnarrow : Narrow arrivals) :
    totalDistance (openedGaps arrivals) + arrivals.length =
      ∑ stream ∈ streamsOf arrivals, extent stream arrivals := by
  induction arrivals using List.reverseRecOn with
  | nil => rfl
  | append_singleton arrivals a ih =>
    specialize ih hascending.of_append_singleton (hnarrow.of_append_singleton hascending)
    have hothers : ∀ s ∈ (streamsOf arrivals).erase a.stream,
        extent s (arrivals ++ [a]) = extent s arrivals := by
      intro s hs
      exact extent_append_other (Finset.ne_of_mem_erase hs).symm arrivals
    rw [openedGaps_append_singleton, totalDistance_append, List.length_append,
      List.length_singleton, streamsOf_append_singleton]
    cases hlast : (numbersOn a.stream arrivals).getLast? with
    | none =>
      have hfirst := List.getLast?_eq_none_iff.1 hlast
      have hnew : a.stream ∉ streamsOf arrivals := by
        rw [mem_streamsOf_iff]
        exact not_not_intro hfirst
      rw [Finset.erase_eq_of_notMem hnew] at hothers
      rw [Finset.sum_insert hnew, Finset.sum_congr rfl hothers, ← ih,
        extent_append_first hfirst, openedBy_of_first hfirst]
      simp only [Option.toList_none, totalDistance, List.map_nil, List.sum_nil]
      omega
    | some previous =>
      have hold : a.stream ∈ streamsOf arrivals := by
        rw [mem_streamsOf_iff]
        intro hnil
        rw [hnil] at hlast
        cases hlast
      have hlt := hascending.lt_of_mem (List.mem_of_getLast? hlast)
      have hskipped := totalDistance_openedBy hlast hlt (hnarrow.step_lt hascending hlast)
      have hlonger := extent_append_own hascending hlast
      rw [← Finset.sum_erase_add _ _ hold] at ih
      rw [Finset.insert_eq_of_mem hold, ← Finset.sum_erase_add _ _ hold,
        Finset.sum_congr rfl hothers]
      omega

end SequenceMonitor

end DepthFeed

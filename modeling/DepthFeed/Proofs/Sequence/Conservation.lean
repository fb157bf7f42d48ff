import DepthFeed.Proofs.Sequence.Arrivals
import DepthFeed.Proofs.Sequence.Memory

/-!
# No number is lost

A monitor of streams whose numbers ascend. Every number from the first to the last one of a stream
either arrived or is missing, and the monitor accounts for both.

* `SequenceMonitor.Follows`: a monitor whose recent gaps are the latest ones that it reported.
* `SequenceMonitor.Follows.observe`: it stays so with every arrival, whatever the mode.
* `SequenceMonitor.run_conserves`: what is missing and what arrived add up, and the reported gaps hold
  missed numbers only, each of them once.
-/

namespace DepthFeed.SequenceMonitor

/-! ## What was reported -/

def reportedGap? : Except Fault (Option Gap) → Option Gap
  | .ok gap => gap
  | .error _ => none

/-- The gaps among some answers. -/
def reported (answers : List (Except Fault (Option Gap))) : List Gap :=
  answers.filterMap reportedGap?

variable {mode : OverflowMode} {m : SequenceMonitor} {arrivals : List Arrival}
  {answers : List (Except Fault (Option Gap))}

theorem reported_append_singleton (answers : List (Except Fault (Option Gap)))
    (answer : Except Fault (Option Gap)) :
    reported (answers ++ [answer]) = reported answers ++ (reportedGap? answer).toList := by
  unfold reported
  rw [List.filterMap_append]
  cases hgap : reportedGap? answer <;> simp [hgap]

/-! ## One arrival -/

/-- A monitor that was given some arrivals and answered them, with or without faults. -/
structure Follows (m : SequenceMonitor) (arrivals : List Arrival)
    (answers : List (Except Fault (Option Gap))) : Prop where
  last?_eq (stream : StreamId) : m.last? stream = lastOn stream (watch arrivals)
  recent_eq : m.recent = latest historyLength (reported answers)
  /-- Nothing is reported but what the arrivals opened. -/
  sublist : (reported answers).Sublist (openedGaps arrivals)
  reported_eq : Completes answers → reported answers = openedGaps arrivals

namespace Follows

theorem empty : empty.Follows [] [] where
  last?_eq stream := Remembers.empty.last?_eq stream
  recent_eq := rfl
  sublist := List.Sublist.refl []
  reported_eq _ := rfl

theorem lastOn_append (h : m.Follows arrivals answers) (a : Arrival) (stream : StreamId) :
    last? { m with cursors := m.cursors.insert a.stream a.sequence } stream =
      lastOn stream (watch (arrivals ++ [a])) := by
  rw [last?_insert, h.last?_eq, watch_append]
  exact (lastOn_append_singleton stream (watch arrivals) a.operation).symm

/-- An arrival that is answered without a gap opened none. -/
theorem accepted (h : m.Follows arrivals answers) {m' : SequenceMonitor} {a : Arrival}
    (hopened : openedBy (watch arrivals) a.operation = none)
    (hlast : ∀ stream, m'.last? stream = lastOn stream (watch (arrivals ++ [a])))
    (hrecent : m'.recent = m.recent) : m'.Follows (arrivals ++ [a]) (answers ++ [.ok none]) := by
  have hgaps : openedGaps (arrivals ++ [a]) = openedGaps arrivals := by
    rw [openedGaps_append_singleton, hopened]
    exact List.append_nil _
  have hreported : reported (answers ++ [.ok none]) = reported answers := by
    rw [reported_append_singleton]
    exact List.append_nil _
  constructor
  · exact hlast
  · rw [hrecent, hreported, h.recent_eq]
  · rw [hreported, hgaps]
    exact h.sublist
  · intro hcompletes
    rw [hreported, hgaps]
    exact h.reported_eq (completes_append_singleton_iff.1 hcompletes).1

theorem gapReported (h : m.Follows arrivals answers) {m' : SequenceMonitor} {a : Arrival} {gap : Gap}
    (hopened : openedBy (watch arrivals) a.operation = some gap)
    (hlast : ∀ stream, m'.last? stream = lastOn stream (watch (arrivals ++ [a])))
    (hrecent : m'.recent = latest historyLength (m.recent ++ [gap])) :
    m'.Follows (arrivals ++ [a]) (answers ++ [.ok (some gap)]) := by
  have hgaps : openedGaps (arrivals ++ [a]) = openedGaps arrivals ++ [gap] := by
    rw [openedGaps_append_singleton, hopened]
    rfl
  have hreported : reported (answers ++ [.ok (some gap)]) = reported answers ++ [gap] :=
    reported_append_singleton answers _
  constructor
  · exact hlast
  · rw [hrecent, hreported, h.recent_eq, latest_latest_append _ _ _ (by decide)]
  · rw [hreported, hgaps]
    exact h.sublist.append (List.Sublist.refl [gap])
  · intro hcompletes
    rw [hreported, hgaps, h.reported_eq (completes_append_singleton_iff.1 hcompletes).1]

theorem faulted (h : m.Follows arrivals answers) {m' : SequenceMonitor} {a : Arrival} (fault : Fault)
    (hlast : ∀ stream, m'.last? stream = lastOn stream (watch (arrivals ++ [a])))
    (hrecent : m'.recent = m.recent) :
    m'.Follows (arrivals ++ [a]) (answers ++ [.error fault]) := by
  have hreported : reported (answers ++ [.error fault]) = reported answers := by
    rw [reported_append_singleton]
    exact List.append_nil _
  constructor
  · exact hlast
  · rw [hrecent, hreported, h.recent_eq]
  · rw [hreported, openedGaps_append_singleton]
    exact h.sublist.trans (List.sublist_append_left _ _)
  · intro hcompletes
    obtain ⟨-, gap, hgap⟩ := completes_append_singleton_iff.1 hcompletes
    cases hgap

/-- One more arrival is answered by the gap that it opens, by none, or by a fault. -/
theorem observe (h : m.Follows arrivals answers) (mode : OverflowMode) (a : Arrival) :
    (m.perform mode a.operation).2.Follows (arrivals ++ [a])
      (answers ++ [(m.perform mode a.operation).1]) := by
  have hlast := h.lastOn_append a
  have hobserve : m.observe mode a.stream a.sequence = _ :=
    observe_eq (h.last?_eq a.stream) a.sequence
  show (m.observe mode a.stream a.sequence).1.Follows _
    (answers ++ [(m.observe mode a.stream a.sequence).2])
  cases hopened : openedBy (watch arrivals) (.observe a.stream a.sequence) with
  | none =>
    rw [hopened] at hobserve
    rw [hobserve]
    exact h.accepted hopened hlast rfl
  | some gap =>
    rw [hopened] at hobserve
    rw [hobserve]
    dsimp only
    by_cases hroom : HasRoom mode { m with cursors := m.cursors.insert a.stream a.sequence } gap
    · rw [record_of_hasRoom hroom]
      exact h.gapReported hopened hlast rfl
    · rw [record_of_not_hasRoom hroom]
      exact h.faulted _ hlast rfl

end Follows

/-! ## Runs -/

theorem run_follows (mode : OverflowMode) (arrivals : List Arrival) :
    (empty.run mode (watch arrivals)).2.Follows arrivals (empty.run mode (watch arrivals)).1 := by
  induction arrivals using List.reverseRecOn with
  | nil => exact .empty
  | append_singleton arrivals a ih =>
    have hnext := ih.observe mode a
    rw [watch_append]
    simp only [run, runWith_append] at hnext ⊢
    exact hnext

theorem exists_openedGaps_append (earlier later : List Arrival) :
    ∃ gaps, openedGaps (earlier ++ later) = openedGaps earlier ++ gaps := by
  induction later using List.reverseRecOn with
  | nil => exact ⟨[], by rw [List.append_nil, List.append_nil]⟩
  | append_singleton later a ih =>
    obtain ⟨gaps, hgaps⟩ := ih
    rw [← List.append_assoc, openedGaps_append_singleton, hgaps, List.append_assoc]
    exact ⟨_, rfl⟩

/-- Where there are words for all gaps together, there are words for them at all times. -/
theorem fits_watch (hwords : FitsWords mode (openedGaps arrivals)) : Fits mode (watch arrivals) := by
  intro n _
  obtain ⟨gaps, hgaps⟩ := exists_openedGaps_append (arrivals.take n) (arrivals.drop n)
  rw [List.take_append_drop] at hgaps
  rw [hgaps] at hwords
  have htake : (watch arrivals).take n = watch (arrivals.take n) := List.map_take.symm
  rw [htake]
  exact hwords.of_append

theorem length_openedGaps_le (arrivals : List Arrival) :
    (openedGaps arrivals).length ≤ arrivals.length := by
  have hnumbers : (watch arrivals).filterMap Operation.number? = arrivals.map Arrival.sequence := by
    rw [watch, List.filterMap_map]
    exact congrFun List.filterMap_eq_map arrivals
  have hle := length_gapsSinceReset_le (watch arrivals)
  rwa [hnumbers, List.length_map] at hle

/-! ## Conservation -/

/-- How a new monitor accounts for the numbers of some streams. -/
structure Conserves (mode : OverflowMode) (arrivals : List Arrival) : Prop where
  /-- As long as the extents of the streams add up to a word, there is no fault, and what is missing
  and what arrived make up the extents. -/
  missing_add_length :
    ∑ stream ∈ streamsOf arrivals, extent stream arrivals < 2 ^ 64 →
      Completes (empty.run mode (watch arrivals)).1 ∧
        (empty.run mode (watch arrivals)).2.missing.toNat + arrivals.length =
          ∑ stream ∈ streamsOf arrivals, extent stream arrivals
  isMissed_of_isSkipped (stream : StreamId) (sequence : Int64) :
    (empty.run mode (watch arrivals)).2.isSkipped stream sequence → IsMissed stream sequence arrivals
  /-- No two reported gaps of a stream skip the same number. -/
  apart : (reported (empty.run mode (watch arrivals)).1).Pairwise Apart
  /-- As long as the history holds all reported gaps, and no arrival ended in a fault, every missed
  number is found in it. -/
  isSkipped_iff :
    (mode = .trapping → Completes (empty.run mode (watch arrivals)).1) →
      (reported (empty.run mode (watch arrivals)).1).length ≤ 64 →
        ∀ stream sequence,
          (empty.run mode (watch arrivals)).2.isSkipped stream sequence ↔
            IsMissed stream sequence arrivals

/-- Where the numbers of every stream ascend, and none of them goes further than a signed word tells,
no number is lost: it arrived, or it is missing. -/
theorem run_conserves (mode : OverflowMode) (hascending : Ascending arrivals)
    (hnarrow : Narrow arrivals) : Conserves mode arrivals := by
  have hfollows := run_follows mode arrivals
  constructor
  · intro hword
    have htotal := totalDistance_add_length hascending hnarrow
    have hlt : totalDistance (openedGaps arrivals) < 2 ^ 64 := by omega
    have hcount := length_openedGaps_le arrivals
    have hfits : Fits mode (watch arrivals) := fits_watch fun _ => ⟨by omega, hlt⟩
    refine ⟨(completes_iff_fits mode _).2 hfits, ?_⟩
    have hmissing : (empty.run mode (watch arrivals)).2.missing =
        .ofNat (totalDistance (openedGaps arrivals)) := (run_remembers hfits).2.missing_eq
    rw [hmissing, UInt64.toNat_ofNat_of_lt' hlt]
    exact htotal
  · intro stream sequence hskipped
    obtain ⟨gap, hgap, hin⟩ := (isSkipped_iff_exists_gap _ stream sequence).1 hskipped
    rw [hfollows.recent_eq] at hgap
    have hopened : gap ∈ openedGaps arrivals := hfollows.sublist.subset (List.mem_of_mem_drop hgap)
    exact (isMissed_iff_exists_gap hascending stream sequence).2 ⟨gap, hopened, hin⟩
  · exact (openedGaps_disjoint hascending).sublist hfollows.sublist
  · intro hcompletes hlength stream sequence
    have hnofault : Completes (empty.run mode (watch arrivals)).1 := by
      cases mode with
      | trapping => exact hcompletes rfl
      | silent => exact (completes_iff_fits _ _).2 (fits_silent _)
    have hall : (empty.run mode (watch arrivals)).2.recent = openedGaps arrivals := by
      rw [hfollows.recent_eq, latest, historyLength, Nat.sub_eq_zero_of_le hlength, List.drop_zero,
        hfollows.reported_eq hnofault]
    rw [isSkipped_iff_exists_gap, isMissed_iff_exists_gap hascending, hall]

/-- Two streams, of which one crosses zero and the other one takes a large step. -/
theorem run_conserves_two_streams :
    let a : StreamId := ⟨⟨1⟩, ⟨7⟩⟩
    let b : StreamId := ⟨⟨2⟩, ⟨7⟩⟩
    let arrivals : List Arrival :=
      [⟨a, -3⟩, ⟨b, 10⟩, ⟨a, 1⟩, ⟨b, 11⟩, ⟨b, 9000000000⟩, ⟨a, 4⟩]
    Ascending arrivals ∧ Narrow arrivals ∧ Conserves .trapping arrivals ∧
      (empty.run .trapping (watch arrivals)).2.missing = 8999999993 ∧
      (empty.run .trapping (watch arrivals)).2.isSkipped a 0 = true := by
  intro a b arrivals
  have hnumbers : ∀ stream, numbersOn stream arrivals =
      if stream = a then [-3, 1, 4] else if stream = b then [10, 11, 9000000000] else [] := by
    intro stream
    by_cases ha : stream = a
    · subst ha
      rfl
    · by_cases hb : stream = b
      · subst hb
        rfl
      · have ha' : ¬ a = stream := fun h => ha h.symm
        have hb' : ¬ b = stream := fun h => hb h.symm
        simp [numbersOn, arrivals, ha, hb, ha', hb']
  have hascending : Ascending arrivals := by
    intro stream
    rw [hnumbers]
    split
    · decide
    · split <;> decide
  have hnarrow : Narrow arrivals := by
    intro stream first last hfirst hlast
    rw [hnumbers] at hfirst hlast
    by_cases ha : stream = a
    · rw [if_pos ha] at hfirst hlast
      obtain rfl := Option.some.inj hfirst
      obtain rfl := Option.some.inj hlast
      decide
    · by_cases hb : stream = b
      · rw [if_neg ha, if_pos hb] at hfirst hlast
        obtain rfl := Option.some.inj hfirst
        obtain rfl := Option.some.inj hlast
        decide
      · rw [if_neg ha, if_neg hb] at hfirst
        cases hfirst
  exact ⟨hascending, hnarrow, run_conserves .trapping hascending hnarrow, by decide, by decide⟩

end DepthFeed.SequenceMonitor

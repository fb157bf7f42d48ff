import Mathlib.Data.List.Induction
import Mathlib.Data.Set.Card
import DepthFeed.Proofs.Runs
import DepthFeed.Proofs.Sequence.History
import DepthFeed.Proofs.Sequence.Observation

/-!
# What a monitor remembers

A monitor that follows a history answers, and is asked, about nothing but that history.

* `SequenceMonitor.Remembers`: a monitor whose cursors, sums and recent gaps are those of a history.
* `SequenceMonitor.Remembers.perform`: one more operation opens the gap that the history tells, and
  is remembered.
* `SequenceMonitor.completes_iff_fits`: a run has no fault exactly if the gaps fit their words.
* `SequenceMonitor.run_recalls`: what a run on a new monitor answers and remembers.
-/

namespace DepthFeed

namespace SequenceMonitor

variable {mode : OverflowMode} {m : SequenceMonitor} {history : List Operation}

/-- The latest entries are found among the latest ones and those that came since. -/
theorem latest_latest_append {α : Type} (n : Nat) (entries : List α) (last : α) (hn : 0 < n) :
    latest n (latest n entries ++ [last]) = latest n (entries ++ [last]) := by
  have hlength : (latest n entries).length = min n entries.length := by
    rw [latest, List.length_drop]
    omega
  have hsplit : latest n entries ++ [last] = (entries ++ [last]).drop (entries.length - n) := by
    rw [latest, List.drop_append_of_le_length (by omega)]
  unfold latest at hlength hsplit ⊢
  rw [hsplit, List.drop_drop, List.length_drop, List.length_append, List.length_singleton]
  congr 1
  omega

/-! ## One operation -/

def perform (mode : OverflowMode) (m : SequenceMonitor) :
    Operation → Except Fault (Option Gap) × SequenceMonitor
  | .observe stream sequence =>
    let (m, found) := m.observe mode stream sequence
    (found, m)
  | .forget stream => (.ok none, m.forget stream)
  | .reset => (.ok none, m.reset)

/-- A monitor that knows the last number of a stream finds the gap that the history tells. -/
theorem observe_eq {stream : StreamId} (hlast : m.last? stream = lastOn stream history)
    (sequence : Int64) :
    m.observe mode stream sequence =
      match openedBy history (.observe stream sequence) with
      | none => ({ m with cursors := m.cursors.insert stream sequence }, .ok none)
      | some gap => record mode { m with cursors := m.cursors.insert stream sequence } gap := by
  rw [last?] at hlast
  unfold observe openedBy
  dsimp only
  rw [hlast]
  cases lastOn stream history with
  | none => rfl
  | some previous =>
    dsimp only
    rw [Option.bind_some]
    split <;> rfl

/-- A monitor that holds what it should of a history. -/
structure Remembers (m : SequenceMonitor) (history : List Operation) : Prop where
  last?_eq (stream : StreamId) : m.last? stream = lastOn stream history
  gaps_eq : m.gaps = .ofNat (gapsSinceReset history).length
  missing_eq : m.missing = .ofNat (totalDistance (gapsSinceReset history))
  recent_eq : m.recent = latest historyLength (gapsSinceReset history)

theorem Remembers.empty : empty.Remembers [] where
  last?_eq stream := by simp [SequenceMonitor.empty, last?]
  gaps_eq := rfl
  missing_eq := rfl
  recent_eq := rfl

theorem last?_insert (stream other : StreamId) (sequence : Int64) (m : SequenceMonitor) :
    last? { m with cursors := m.cursors.insert stream sequence } other =
      if stream = other then some sequence else m.last? other := by
  simp [last?, Std.TreeMap.getElem?_insert]

theorem last?_forget (stream other : StreamId) (m : SequenceMonitor) :
    (m.forget stream).last? other = if stream = other then none else m.last? other := by
  simp [last?, forget, Std.TreeMap.getElem?_erase]

namespace Remembers

/-- An operation that opens no gap is remembered by the cursors alone. -/
theorem keep (h : m.Remembers history) {m' : SequenceMonitor} {last : Operation}
    (hreset : last ≠ .reset) (hopened : openedBy history last = none)
    (hgaps : m'.gaps = m.gaps) (hmissing : m'.missing = m.missing) (hrecent : m'.recent = m.recent)
    (hlast : ∀ stream, m'.last? stream = lastOn stream (history ++ [last])) :
    m'.Remembers (history ++ [last]) := by
  have hsame := gapsSinceReset_of_not_opened hreset hopened
  exact {
    last?_eq := hlast
    gaps_eq := by rw [hgaps, hsame, h.gaps_eq]
    missing_eq := by rw [hmissing, hsame, h.missing_eq]
    recent_eq := by rw [hrecent, hsame, h.recent_eq] }

theorem opened (h : m.Remembers history) {m' : SequenceMonitor} {last : Operation} {gap : Gap}
    (hopened : openedBy history last = some gap) (hgaps : m'.gaps = m.gaps + 1)
    (hmissing : m'.missing = m.missing + gap.missing)
    (hrecent : m'.recent = latest historyLength (m.recent ++ [gap]))
    (hlast : ∀ stream, m'.last? stream = lastOn stream (history ++ [last])) :
    m'.Remembers (history ++ [last]) := by
  have hmore := gapsSinceReset_of_opened hopened
  constructor
  · exact hlast
  · rw [hgaps, hmore, h.gaps_eq, List.length_append, List.length_singleton, UInt64.ofNat_add]
    rfl
  · rw [hmissing, hmore, h.missing_eq, totalDistance_append_singleton, UInt64.ofNat_add,
      ← gap.toNat_missing, UInt64.ofNat_toNat]
  · rw [hrecent, hmore, h.recent_eq, latest_latest_append _ _ _ (by decide)]

/-- As long as the gaps fit their words, there is room for one more exactly if it fits them too. -/
theorem hasRoom_iff (h : m.Remembers history) (hfits : FitsWords mode (gapsSinceReset history))
    (gap : Gap) : m.HasRoom mode gap ↔ FitsWords mode (gapsSinceReset history ++ [gap]) := by
  refine forall_congr' fun htrapping => ?_
  obtain ⟨hcount, htotal⟩ := hfits htrapping
  rw [h.gaps_eq, h.missing_eq, UInt64.toNat_ofNat_of_lt' hcount, UInt64.toNat_ofNat_of_lt' htotal,
    gap.toNat_missing, List.length_append, List.length_singleton, totalDistance_append_singleton]

theorem observe (h : m.Remembers history) (stream : StreamId) (sequence : Int64)
    (hfits : FitsWords mode (gapsSinceReset (history ++ [.observe stream sequence]))) :
    (m.observe mode stream sequence).2 = .ok (openedBy history (.observe stream sequence)) ∧
      (m.observe mode stream sequence).1.Remembers (history ++ [.observe stream sequence]) := by
  have hlast : ∀ other, last? { m with cursors := m.cursors.insert stream sequence } other =
      lastOn other (history ++ [.observe stream sequence]) := by
    intro other
    rw [last?_insert, lastOn_append_singleton, h.last?_eq]
    rfl
  rw [observe_eq (h.last?_eq stream)]
  cases hopened : openedBy history (.observe stream sequence) with
  | none => exact ⟨rfl, h.keep Operation.noConfusion hopened rfl rfl rfl hlast⟩
  | some gap =>
    rw [gapsSinceReset_of_opened hopened] at hfits
    have hroom : HasRoom mode { m with cursors := m.cursors.insert stream sequence } gap :=
      (h.hasRoom_iff hfits.of_append gap).2 hfits
    dsimp only
    rw [record_of_hasRoom hroom]
    exact ⟨rfl, h.opened hopened rfl rfl rfl hlast⟩

/-- The gap that does not fit any more is counted if the count has room for it, and not recorded. -/
theorem observe_overflows (h : m.Remembers history)
    (hfits : FitsWords mode (gapsSinceReset history)) {stream : StreamId} {sequence : Int64}
    (hover : ¬ FitsWords mode (gapsSinceReset (history ++ [.observe stream sequence]))) :
    m.observe mode stream sequence =
      ({ m with
          cursors := m.cursors.insert stream sequence
          gaps := if m.gaps.toNat + 1 < 2 ^ 64 then m.gaps + 1 else m.gaps },
        .error (.overflow .add)) := by
  rw [observe_eq (h.last?_eq stream)]
  cases hopened : openedBy history (.observe stream sequence) with
  | none =>
    rw [gapsSinceReset_of_not_opened Operation.noConfusion hopened] at hover
    exact absurd hfits hover
  | some gap =>
    rw [gapsSinceReset_of_opened hopened, ← h.hasRoom_iff hfits] at hover
    have hroom : ¬ HasRoom mode { m with cursors := m.cursors.insert stream sequence } gap := hover
    dsimp only
    rw [record_of_not_hasRoom hroom]

/-- One more operation opens the gap that the history tells, and is remembered. -/
theorem perform (h : m.Remembers history) (last : Operation)
    (hfits : FitsWords mode (gapsSinceReset (history ++ [last]))) :
    (m.perform mode last).1 = .ok (openedBy history last) ∧
      (m.perform mode last).2.Remembers (history ++ [last]) := by
  cases last with
  | observe stream sequence => exact h.observe stream sequence hfits
  | forget stream =>
    refine ⟨rfl, h.keep Operation.noConfusion rfl rfl rfl rfl fun other => ?_⟩
    rw [SequenceMonitor.perform, last?_forget, lastOn_append_singleton, h.last?_eq]
    rfl
  | reset =>
    have hnone : gapsSinceReset (history ++ [.reset]) = [] := by
      rw [gapsSinceReset_append_singleton, if_pos rfl]
    refine ⟨rfl, ?_, ?_, ?_, ?_⟩
    · intro stream
      rw [lastOn_append_singleton]
      exact Remembers.empty.last?_eq stream
    · rw [hnone]
      rfl
    · rw [hnone]
      rfl
    · rw [hnone]
      rfl

/-- An operation ends without a fault exactly if the gaps fit their words after it. -/
theorem perform_eq_ok_iff (h : m.Remembers history)
    (hfits : FitsWords mode (gapsSinceReset history)) (last : Operation) :
    (∃ found, (m.perform mode last).1 = .ok found) ↔
      FitsWords mode (gapsSinceReset (history ++ [last])) := by
  constructor
  · rintro ⟨found, hfound⟩
    by_contra hover
    cases last with
    | observe stream sequence =>
      have hfault : (m.observe mode stream sequence).2 = .error (.overflow .add) := by
        rw [h.observe_overflows hfits hover]
      cases hfound.symm.trans hfault
    | forget stream =>
      rw [gapsSinceReset_of_not_opened Operation.noConfusion rfl] at hover
      exact hover hfits
    | reset =>
      rw [gapsSinceReset_append_singleton, if_pos rfl] at hover
      exact hover fun _ => by decide
  · exact fun hnext => ⟨_, (h.perform last hnext).1⟩

end Remembers

/-! ## Runs -/

def run (mode : OverflowMode) (m : SequenceMonitor) (operations : List Operation) :
    List (Except Fault (Option Gap)) × SequenceMonitor :=
  runWith (perform mode) m operations

/-- No answer is a fault. -/
def Completes (answers : List (Except Fault (Option Gap))) : Prop :=
  ∀ answer ∈ answers, ∃ gap, answer = .ok gap

theorem completes_append_singleton_iff {answers : List (Except Fault (Option Gap))}
    {answer : Except Fault (Option Gap)} :
    Completes (answers ++ [answer]) ↔ Completes answers ∧ ∃ gap, answer = .ok gap := by
  simp only [Completes, List.forall_mem_append, List.forall_mem_singleton]

theorem run_append_singleton (mode : OverflowMode) (m : SequenceMonitor)
    (operations : List Operation) (last : Operation) :
    m.run mode (operations ++ [last]) =
      ((m.run mode operations).1 ++ [((m.run mode operations).2.perform mode last).1],
        ((m.run mode operations).2.perform mode last).2) := by
  simp [run, runWith_append]

theorem run_remembers (hfits : Fits mode history) :
    (empty.run mode history).1 = (openedAfter [] history).map .ok ∧
      (empty.run mode history).2.Remembers history := by
  induction history using List.reverseRecOn with
  | nil => exact ⟨rfl, .empty⟩
  | append_singleton history last ih =>
    obtain ⟨hearlier, hwords⟩ := fits_append_singleton_iff.1 hfits
    obtain ⟨hanswers, hremembers⟩ := ih hearlier
    obtain ⟨hanswer, hnext⟩ := hremembers.perform last hwords
    rw [run_append_singleton, hanswers, hanswer, openedAfter_append_singleton, List.map_append]
    exact ⟨rfl, hnext⟩

/-- A run on a new monitor ends without a fault exactly if the gaps fit their words at all times. -/
theorem completes_iff_fits (mode : OverflowMode) (history : List Operation) :
    Completes (empty.run mode history).1 ↔ Fits mode history := by
  induction history using List.reverseRecOn with
  | nil =>
    refine iff_of_true (List.forall_mem_nil _) fun n _ _ => ?_
    rw [List.take_nil]
    decide
  | append_singleton history last ih =>
    rw [run_append_singleton, completes_append_singleton_iff, ih, fits_append_singleton_iff]
    refine and_congr_right fun hearlier => ?_
    exact (run_remembers hearlier).2.perform_eq_ok_iff hearlier.fitsWords last

/-! ## What is remembered -/

/-- What a run on a new monitor has to do with its history. -/
structure Recalls (mode : OverflowMode) (history : List Operation) : Prop where
  /-- Each operation opens the gap that the history tells. -/
  answers_eq : (empty.run mode history).1 = (openedAfter [] history).map .ok
  last?_eq (stream : StreamId) : (empty.run mode history).2.last? stream = lastOn stream history
  streams_eq : (empty.run mode history).2.streams = {stream | (lastOn stream history).isSome}.ncard
  gaps_eq : (empty.run mode history).2.gaps = .ofNat (gapsSinceReset history).length
  missing_eq :
    (empty.run mode history).2.missing = .ofNat (totalDistance (gapsSinceReset history))
  /-- The latest 64 gaps are kept, or all of them if there are fewer. -/
  recent_eq :
    (empty.run mode history).2.recent =
      (gapsSinceReset history).drop ((gapsSinceReset history).length - 64)
  isSkipped_iff (stream : StreamId) (sequence : Int64) :
    (empty.run mode history).2.isSkipped stream sequence ↔
      ∃ gap ∈ (gapsSinceReset history).drop ((gapsSinceReset history).length - 64),
        gap.stream = stream ∧ gap.expected ≤ sequence ∧ sequence < gap.received

/-- There are as many cursors as streams with a last number. -/
theorem streams_eq_ncard (m : SequenceMonitor) :
    m.streams = {stream | (m.last? stream).isSome}.ncard := by
  have hkeys : {stream | (m.last? stream).isSome} = (m.cursors.keys.toFinset : Set StreamId) := by
    ext stream
    simp [last?, Std.TreeMap.mem_keys]
  rw [hkeys, Set.ncard_coe_finset, List.toFinset_card_of_nodup Std.TreeMap.nodup_keys,
    Std.TreeMap.length_keys, streams]

theorem isSkipped_iff_exists_gap (m : SequenceMonitor) (stream : StreamId) (sequence : Int64) :
    m.isSkipped stream sequence ↔
      ∃ gap ∈ m.recent, gap.stream = stream ∧ gap.Contains sequence := by
  rw [isSkipped, List.any_eq_true]
  simp only [decide_eq_true_eq]

theorem Fits.recalls (hfits : Fits mode history) : Recalls mode history := by
  obtain ⟨hanswers, hremembers⟩ := run_remembers hfits
  constructor
  · exact hanswers
  · exact hremembers.last?_eq
  · simp only [streams_eq_ncard, hremembers.last?_eq]
  · exact hremembers.gaps_eq
  · exact hremembers.missing_eq
  · exact hremembers.recent_eq
  · intro stream sequence
    rw [isSkipped_iff_exists_gap, hremembers.recent_eq]
    rfl

/-- A new monitor has no fault exactly if the gaps and the numbers they skip fit their words. Then
it answers and remembers what its history tells, and what it answers for a stream depends on the
operations that concern that stream alone. -/
theorem run_recalls (mode : OverflowMode) (history : List Operation) :
    (Completes (empty.run mode history).1 ↔ Fits mode history) ∧
      (Fits mode history → Recalls mode history) ∧
      ∀ (mode' : OverflowMode) (history' : List Operation) (stream : StreamId) (sequence : Int64),
        Fits mode (history ++ [.observe stream sequence]) →
        Fits mode' (history' ++ [.observe stream sequence]) →
        concerning stream history' = concerning stream history →
        (perform mode' (empty.run mode' history').2 (.observe stream sequence)).1 =
          (perform mode (empty.run mode history).2 (.observe stream sequence)).1 := by
  refine ⟨completes_iff_fits mode history, Fits.recalls, ?_⟩
  intro mode' history' stream sequence hfits hfits' hsame
  have hopened : openedBy history' (.observe stream sequence) =
      openedBy history (.observe stream sequence) := by
    simp only [openedBy, lastOn, hsame]
  obtain ⟨hearlier, hwords⟩ := fits_append_singleton_iff.1 hfits
  obtain ⟨hearlier', hwords'⟩ := fits_append_singleton_iff.1 hfits'
  have hanswer := ((run_remembers hearlier).2.perform _ hwords).1
  have hanswer' := ((run_remembers hearlier').2.perform _ hwords').1
  rw [hanswer, hanswer', hopened]

/-- Two streams in turn, of which one goes back, is forgotten, and then starts where it likes. -/
theorem run_recalls_two_streams :
    let a : StreamId := ⟨⟨1⟩, ⟨7⟩⟩
    let b : StreamId := ⟨⟨2⟩, ⟨7⟩⟩
    let history : List Operation :=
      [.observe a 5, .observe b 1, .observe a 9, .observe a 7, .forget a, .observe a 3]
    Fits .trapping (history ++ [.observe b 4]) ∧ Recalls .trapping history ∧
      (empty.run .trapping history).1 =
        [.ok none, .ok none, .ok (some ⟨a, 6, 9⟩), .ok (some ⟨a, 10, 7⟩), .ok none, .ok none] ∧
      (perform .silent (empty.run .silent [.observe b 1]).2 (.observe b 4)).1 =
        (perform .trapping (empty.run .trapping history).2 (.observe b 4)).1 := by
  intro a b history
  have hfits : Fits .trapping (history ++ [.observe b 4]) := by decide
  obtain ⟨-, hrecalls, hindependent⟩ := run_recalls .trapping history
  have hall := hrecalls (fits_append_singleton_iff.1 hfits).1
  refine ⟨hfits, hall, hall.answers_eq.trans (by decide), ?_⟩
  exact hindependent .silent [.observe b 1] b 4 hfits (fits_silent _) rfl

end SequenceMonitor

end DepthFeed

import Mathlib.Algebra.Ring.Nat
import DepthFeed.Sequence.Monitor

/-!
# What one number does to a monitor

A number moves the cursor of its stream, and one that is not the next number opens a gap. The
monitor takes the gap in if its count of gaps and its sum of missing numbers have room for it. In a
silent computation they always have, since they wrap around.

* `SequenceMonitor.HasRoom`: whether a gap can be taken in.
* `SequenceMonitor.record_of_hasRoom`, `SequenceMonitor.record_of_not_hasRoom`: what becomes of it.
* `SequenceMonitor.observe_cases`: a number opens no gap, or one that is to be recorded.
* `SequenceMonitor.observe_of_ok`: a number that is observed without a fault is observed alike in
  both modes.
-/

namespace DepthFeed

namespace OverflowMode

theorem unsigned_of_fits {mode : OverflowMode} {exact : Nat}
    (h : mode = .trapping → exact < 2 ^ 64) (operation : Operation) :
    mode.unsigned operation exact = .ok (.ofNat exact) := by
  cases mode with
  | silent => rfl
  | trapping => exact if_pos (h rfl)

theorem unsigned_of_overflows {exact : Nat} (h : 2 ^ 64 ≤ exact) (operation : Operation) :
    trapping.unsigned operation exact = .error (.overflow operation) :=
  if_neg (Nat.not_lt_of_ge h)

end OverflowMode

namespace SequenceMonitor

variable {mode : OverflowMode} {m : SequenceMonitor} {gap : Gap}

/-! ## Gaps -/

/-- In a trapping computation, there are words for one more gap and for its missing numbers. -/
def HasRoom (mode : OverflowMode) (m : SequenceMonitor) (gap : Gap) : Prop :=
  mode = .trapping → m.gaps.toNat + 1 < 2 ^ 64 ∧ m.missing.toNat + gap.missing.toNat < 2 ^ 64

/-- The monitor with one more gap. -/
def takeIn (m : SequenceMonitor) (gap : Gap) : SequenceMonitor :=
  { m with
    gaps := m.gaps + 1
    missing := m.missing + gap.missing
    recent := latest historyLength (m.recent ++ [gap]) }

theorem hasRoom_silent (m : SequenceMonitor) (gap : Gap) : m.HasRoom .silent gap :=
  fun h => nomatch h

theorem record_of_hasRoom (h : m.HasRoom mode gap) :
    m.record mode gap = (m.takeIn gap, .ok (some gap)) := by
  have hcount : UInt64.ofNat (m.gaps.toNat + 1) = m.gaps + 1 := by
    rw [UInt64.ofNat_add, UInt64.ofNat_toNat]
    rfl
  have hsum : UInt64.ofNat (m.missing.toNat + gap.missing.toNat) = m.missing + gap.missing := by
    rw [UInt64.ofNat_add, UInt64.ofNat_toNat, UInt64.ofNat_toNat]
  unfold record
  rw [OverflowMode.unsigned_of_fits (fun hmode => (h hmode).1), hcount]
  dsimp only
  rw [OverflowMode.unsigned_of_fits (fun hmode => (h hmode).2), hsum]
  rfl

/-- A gap without room is counted if the count has room for it, and leaves no other trace. -/
theorem record_of_not_hasRoom (h : ¬ m.HasRoom mode gap) :
    m.record mode gap =
      ({ m with gaps := if m.gaps.toNat + 1 < 2 ^ 64 then m.gaps + 1 else m.gaps },
        .error (.overflow .add)) := by
  obtain ⟨rfl, hover⟩ := Classical.not_imp.1 h
  unfold record
  by_cases hcount : m.gaps.toNat + 1 < 2 ^ 64
  · have hsum : 2 ^ 64 ≤ m.missing.toNat + gap.missing.toNat :=
      Nat.le_of_not_lt fun hfits => hover ⟨hcount, hfits⟩
    rw [OverflowMode.unsigned_of_fits fun _ => hcount]
    dsimp only
    rw [OverflowMode.unsigned_of_overflows hsum, if_pos hcount, UInt64.ofNat_add,
      UInt64.ofNat_toNat]
    rfl
  · rw [OverflowMode.unsigned_of_overflows (Nat.le_of_not_lt hcount), if_neg hcount]

/-- A gap that is recorded without a fault is recorded alike in both modes. -/
theorem record_of_ok {found : Option Gap} (h : (m.record mode gap).2 = .ok found) :
    m.record mode gap = m.record .silent gap := by
  by_cases hroom : m.HasRoom mode gap
  · rw [record_of_hasRoom hroom, record_of_hasRoom (m.hasRoom_silent gap)]
  · rw [record_of_not_hasRoom hroom] at h
    cases h

/-! ## Numbers -/

/-- A number that is not the next one of its stream opens a gap of that stream. -/
theorem observe_cases (m : SequenceMonitor) (stream : StreamId) (sequence : Int64) :
    (∀ mode, m.observe mode stream sequence =
        ({ m with cursors := m.cursors.insert stream sequence }, .ok none)) ∨
      ∃ gap, gap.stream = stream ∧ ∀ mode, m.observe mode stream sequence =
        record mode { m with cursors := m.cursors.insert stream sequence } gap := by
  unfold observe
  dsimp only
  split
  · exact Or.inl fun _ => rfl
  · split
    · exact Or.inl fun _ => rfl
    · exact Or.inr ⟨_, rfl, fun _ => rfl⟩

/-- In a silent computation a gap is always counted. -/
theorem observe_silent_cases (m : SequenceMonitor) (stream : StreamId) (sequence : Int64) :
    ((m.observe .silent stream sequence).2 = .ok none ∧
        (m.observe .silent stream sequence).1.gaps = m.gaps ∧
        (m.observe .silent stream sequence).1.missing = m.missing) ∨
      ∃ gap, (m.observe .silent stream sequence).2 = .ok (some gap) ∧ gap.stream = stream ∧
        (m.observe .silent stream sequence).1.gaps = m.gaps + 1 ∧
        (m.observe .silent stream sequence).1.missing = m.missing + gap.missing := by
  rcases m.observe_cases stream sequence with hnone | ⟨gap, hstream, hopened⟩
  · rw [hnone]
    exact Or.inl ⟨rfl, rfl, rfl⟩
  · rw [hopened, record_of_hasRoom (hasRoom_silent _ gap)]
    exact Or.inr ⟨gap, rfl, hstream, rfl, rfl⟩

theorem observe_of_ok {stream : StreamId} {sequence : Int64} {found : Option Gap}
    (h : (m.observe mode stream sequence).2 = .ok found) :
    m.observe mode stream sequence = m.observe .silent stream sequence := by
  rcases m.observe_cases stream sequence with hnone | ⟨gap, -, hopened⟩
  · rw [hnone, hnone]
  · rw [hopened] at h
    rw [hopened, hopened, record_of_ok h]

end SequenceMonitor

end DepthFeed

import DepthFeed.Proofs.Ring.Handles
import DepthFeed.Proofs.Ring.Slots

/-!
# Where the items of a ring go

A log of what is done through the handles of a ring tells what became of every item that was offered:
it was handed back, given up, read, discarded, or released with the last handle. What it does not tell
of is still in the ring.

* `Pipe.trace`: a run with the items that each of its operations is done with.
* `Pipe.Keeps`: a pipe whose ring holds some items, and none once nobody holds the ring.
* `Pipe.Keeps.perform`: an operation is done with items that were offered or held, each of them once.
* `Pipe.trace_owns`: so is every run, on slots that are safe to touch, whatever the order in which the
  handles go.
-/

namespace DepthFeed

/-- How a ring was done with an item. -/
inductive Fate where
  /-- It was offered, not taken, and handed back. -/
  | handedBack
  /-- It was offered, not taken, and given up. -/
  | refused
  | returned
  | discarded
  /-- It was in the ring when the last handle closed. -/
  | released
deriving DecidableEq, Repr

namespace Pipe

variable {α : Type}

/-- An operation, its answer, and the items that the ring was done with. -/
structure Step (α : Type) where
  operation : Operation α
  answer : Answer α
  ended : List (Fate × α)
deriving DecidableEq, Repr

/-- The items that go with the ring, if no handle is open. -/
def released (p : Pipe α) : List α :=
  if p.readerOpen || !p.writersGone then [] else p.ring.release.1

/-- The items that a ring is done with after an operation. -/
def ended (p : Pipe α) (operation : Operation α) : List (Fate × α) :=
  match operation, (p.perform operation).1 with
  | .push _ _, .pushed back => back.toList.map (.handedBack, ·)
  | .write _ item, .written false => [(.refused, item)]
  | .read, .item item => item.toList.map (.returned, ·)
  | .readMany _, .items items | .drain, .items items => items.map (.returned, ·)
  | .discard, .discarded _ => p.drain.1.map (.discarded, ·)
  | .closeWriter writer, .closed true =>
    { p with writers := p.writers.set writer false }.released.map (.released, ·)
  | .closeReader, .closed true => { p with readerOpen := false }.released.map (.released, ·)
  | _, _ => []

def step (p : Pipe α) (operation : Operation α) : Step α × Pipe α :=
  (⟨operation, (p.perform operation).1, p.ended operation⟩, (p.perform operation).2)

def trace (p : Pipe α) (operations : List (Operation α)) : List (Step α) × Pipe α :=
  runWith step p operations

/-! ## What a log tells -/

/-- The items offered through an open writer. -/
def Step.offered (s : Step α) : List α :=
  match s.operation, s.answer with
  | .push _ item, .pushed _ | .write _ item, .written _ => [item]
  | _, _ => []

def offeredIn (log : List (Step α)) : List α := log.flatMap Step.offered

def endedIn (log : List (Step α)) : List (Fate × α) := log.flatMap Step.ended

def Step.Grants (writer : Nat) (s : Step α) : Prop := s.answer = .writer (.granted writer)

def Step.Closes (writer : Nat) (s : Step α) : Prop :=
  s.operation = .closeWriter writer ∧ s.answer = .closed true

/-- The writer was handed out and was not closed. -/
def IsAlive (writer : Nat) (log : List (Step α)) : Prop :=
  (writer = 0 ∨ ∃ s ∈ log, s.Grants writer) ∧ ∀ s ∈ log, ¬ s.Closes writer

/-! ## Items -/

/-- The ring of the pipe holds the items while a handle is open, and then none. -/
structure Keeps (p : Pipe α) (items : List α) : Prop where
  stores : p.ring.Stores items
  holds : p.IsHeld → p.ring.Holds items
  gone : ¬ p.IsHeld → items = []

namespace Keeps

variable {p : Pipe α} {items : List α}

theorem of_holds (h : p.ring.Holds items) (held : p.IsHeld) : p.Keeps items where
  stores := h.toStores
  holds _ := h
  gone hfree := absurd held hfree

/-- After a handle closed, the items stay in the ring or are released. -/
theorem settle (h : p.ring.Holds items) :
    ∃ rest, p.settle.Keeps rest ∧ items = p.released ++ rest := by
  unfold Pipe.settle released
  by_cases hheld : (p.readerOpen || !p.writersGone) = true
  · rw [if_pos hheld, if_pos hheld]
    have held : p.IsHeld := by simpa [IsHeld] using hheld
    exact ⟨items, .of_holds h held, rfl⟩
  · rw [if_neg hheld, if_neg hheld, onRing_eq]
    obtain ⟨hitems, hempty⟩ := h.toStores.release
    have hfree : ¬ p.IsHeld := by simpa [IsHeld] using hheld
    refine ⟨[], ⟨hempty, fun held => absurd held hfree, fun _ => rfl⟩, ?_⟩
    rw [hitems, List.append_nil]

/-- The queue of the same items behind the same handles. -/
theorem follows (h : p.Keeps items) :
    p.Follows ⟨p.ring.capacity, items, p.kind, p.writers, p.readerOpen⟩ where
  kind_eq := rfl
  writers_eq := rfl
  readerOpen_eq := rfl
  capacity_eq _ := rfl
  holds := h.holds

/-- An operation through an open handle is done with items that were in the ring or offered, and
leaves the others in the ring. -/
theorem performOpen (h : p.Keeps items) {operation : Operation α}
    (hopen : p.hasHandle operation.handle) :
    ∃ rest, (p.perform operation).2.Keeps rest ∧
      (items ++ (p.step operation).1.offered).Perm
        ((p.ended operation).map Prod.snd ++ rest) := by
  have held : p.IsHeld := isHeld_of_hasHandle hopen
  rcases p.perform_cases operation with ⟨hsame, hnone, -⟩ | ⟨writer, rfl, -, -, hgranted⟩ |
    ⟨writer, rfl, -, hclosed⟩ | ⟨rfl, -, hclosed⟩
  · -- where the handles stay, the ring goes on with the items of the queue
    obtain ⟨hanswer, hnext⟩ := h.follows.performOpen hopen
    have held' := hsame.isHeld held
    refine ⟨_, .of_holds (hnext.holds held') held', ?_⟩
    simp only [step, Step.offered, ended, hanswer]
    cases operation with
    | push writer item | write writer item =>
      simp only [FifoQueue.performOpen, FifoQueue.offer]
      by_cases hroom :
          FifoQueue.HasRoom ⟨p.ring.capacity, items, p.kind, p.writers, p.readerOpen⟩ <;>
        simp [hroom]
    | read => cases items <;> simp [FifoQueue.performOpen]
    | discard =>
      have hdrain : p.drain.1 = items := (h.holds held).drain.1
      simp [FifoQueue.performOpen, hdrain]
    | readMany | drain | measure => simp [FifoQueue.performOpen]
    | addWriter => cases p.kind <;> simp [FifoQueue.performOpen]
    | closeWriter | closeReader => exact absurd hanswer hnone
  · refine ⟨items, ?_, by simp [step, Step.offered, ended, hgranted]⟩
    rw [hgranted]
    exact .of_holds (h.holds held) (.inr (by simp [writersGone]))
  · obtain ⟨rest, hkeeps, hitems⟩ :=
      settle (p := { p with writers := p.writers.set writer false }) (h.holds held)
    refine ⟨rest, hclosed ▸ hkeeps, ?_⟩
    simp [step, Step.offered, ended, hclosed, hitems]
  · obtain ⟨rest, hkeeps, hitems⟩ := settle (p := { p with readerOpen := false }) (h.holds held)
    refine ⟨rest, hclosed ▸ hkeeps, ?_⟩
    simp [step, Step.offered, ended, hclosed, hitems]

theorem perform (h : p.Keeps items) (operation : Operation α) :
    ∃ rest, (p.perform operation).2.Keeps rest ∧
      (items ++ (p.step operation).1.offered).Perm
        ((p.ended operation).map Prod.snd ++ rest) := by
  by_cases hopen : p.hasHandle operation.handle
  · exact h.performOpen hopen
  · have hclosed : p.perform operation = (operation.refusal, p) :=
      perform_of_closed (by simpa using hopen)
    refine ⟨items, by rwa [hclosed], ?_⟩
    cases operation <;> simp [step, Step.offered, ended, hclosed, Operation.refusal]

/-- Whatever was in the ring or offered to it, a run is done with it or leaves it in the ring. -/
theorem trace (h : p.Keeps items) (operations : List (Operation α)) :
    ∃ rest, (p.trace operations).2.Keeps rest ∧
      (items ++ offeredIn (p.trace operations).1).Perm
        ((endedIn (p.trace operations).1).map Prod.snd ++ rest) := by
  induction operations generalizing p items with
  | nil => exact ⟨items, h, by simp [Pipe.trace, offeredIn, endedIn]⟩
  | cons operation operations ih =>
    obtain ⟨between, hbetween, hfirst⟩ := h.perform operation
    obtain ⟨rest, hrest, hlater⟩ := ih hbetween
    refine ⟨rest, hrest, ?_⟩
    have hoffered : offeredIn (p.trace (operation :: operations)).1 =
        (p.step operation).1.offered ++ offeredIn ((p.perform operation).2.trace operations).1 :=
      List.flatMap_cons
    have hended : endedIn (p.trace (operation :: operations)).1 =
        p.ended operation ++ endedIn ((p.perform operation).2.trace operations).1 :=
      List.flatMap_cons
    rw [hoffered, hended, List.map_append, ← List.append_assoc]
    refine (hfirst.append_right _).trans ?_
    rw [List.append_assoc, List.append_assoc]
    exact hlater.append_left _

end Keeps

/-! ## Handles -/

/-- An operation hands out a writer, closes an open one, or leaves the writers as they are. -/
theorem writers_step (p : Pipe α) (operation : Operation α) :
    ((p.step operation).1.Grants p.writers.length ∧
        (∀ writer, ¬ (p.step operation).1.Closes writer) ∧
        (p.step operation).2.writers = p.writers ++ [true]) ∨
      (∃ writer, p.hasWriter writer = true ∧ (p.step operation).1.Closes writer ∧
        (∀ other, ¬ (p.step operation).1.Grants other) ∧
        (p.step operation).2.writers = p.writers.set writer false) ∨
      (∀ writer, ¬ (p.step operation).1.Grants writer ∧ ¬ (p.step operation).1.Closes writer) ∧
        (p.step operation).2.writers = p.writers := by
  rcases p.perform_cases operation with ⟨hsame, hclosed, hgranted⟩ |
    ⟨writer, rfl, -, -, hgranted⟩ | ⟨writer, rfl, hopen, hclosed⟩ | ⟨rfl, -, hclosed⟩
  · exact .inr (.inr ⟨fun writer => ⟨hgranted writer, fun hcloses => hclosed hcloses.2⟩,
      hsame.writers_eq⟩)
  · simp [step, Step.Grants, Step.Closes, hgranted]
  · refine .inr (.inl ⟨writer, hopen, ?_⟩)
    simp [step, Step.Grants, Step.Closes, hclosed, (SameHandles.settle _).writers_eq]
  · simp [step, Step.Grants, Step.Closes, hclosed, (SameHandles.settle _).writers_eq]

theorem hasWriter_iff (p : Pipe α) (writer : Nat) :
    p.hasWriter writer = true ↔ p.writers[writer]? = some true := by
  simp [hasWriter]

theorem Step.Grants.unique {s : Step α} {a b : Nat} (ha : s.Grants a) (hb : s.Grants b) : a = b := by
  have heq : (.writer (.granted a) : Answer α) = .writer (.granted b) := ha.symm.trans hb
  cases heq
  rfl

theorem Step.Closes.unique {s : Step α} {a b : Nat} (ha : s.Closes a) (hb : s.Closes b) : a = b := by
  have heq : (.closeWriter a : Operation α) = .closeWriter b := ha.1.symm.trans hb.1
  cases heq
  rfl

/-- A log tells which handles are open. -/
structure Tells (log : List (Step α)) (p : Pipe α) : Prop where
  hasWriter_iff (writer : Nat) : p.hasWriter writer = true ↔ IsAlive writer log
  closed_lt (writer : Nat) : ∀ s ∈ log, s.Closes writer → writer < p.writers.length
  readerOpen_iff : p.readerOpen = true ↔ ∀ s ∈ log, s.operation ≠ .closeReader

/-- One step more grants a writer, or closes one, or does neither. -/
theorem isAlive_append_singleton (writer : Nat) (log : List (Step α)) (s : Step α) :
    IsAlive writer (log ++ [s]) ↔
      (writer = 0 ∨ (∃ s ∈ log, s.Grants writer) ∨ s.Grants writer) ∧
        (∀ s ∈ log, ¬ s.Closes writer) ∧ ¬ s.Closes writer := by
  simp only [IsAlive, List.mem_append, List.mem_singleton, or_imp, forall_and, forall_eq, or_and_right,
    exists_or, exists_eq_left]

namespace Tells

variable {log : List (Step α)} {p : Pipe α}

theorem closed_lt_append_singleton (h : Tells log p) {last : Step α} {count : Nat}
    (hcount : p.writers.length ≤ count) (hlast : ∀ writer, last.Closes writer → writer < count)
    (writer : Nat) : ∀ s ∈ log ++ [last], s.Closes writer → writer < count := by
  intro s hs hclosed
  rcases List.mem_append.1 hs with hs | hs
  · exact (h.closed_lt writer s hs hclosed).trans_le hcount
  · obtain rfl := List.mem_singleton.1 hs
    exact hlast writer hclosed

theorem step (h : Tells log p) (operation : Operation α) :
    Tells (log ++ [(p.step operation).1]) (p.step operation).2 := by
  have hreader : (p.step operation).2.readerOpen = true ↔
      ∀ s ∈ log ++ [(p.step operation).1], s.operation ≠ .closeReader := by
    rw [List.forall_mem_append, List.forall_mem_singleton, ← h.readerOpen_iff]
    exact p.readerOpen_perform operation
  rcases p.writers_step operation with ⟨hgrants, hcloses, hwriters⟩ |
    ⟨closed, hopen, hcloses, hgrants, hwriters⟩ | ⟨hneither, hwriters⟩
  · refine ⟨fun writer => ?_, ?_, hreader⟩
    · rw [Pipe.hasWriter_iff, hwriters, isAlive_append_singleton]
      by_cases hnew : writer = p.writers.length
      · subst hnew
        refine iff_of_true List.getElem?_concat_length ⟨.inr (.inr hgrants), ?_, hcloses _⟩
        intro s hs hclosed
        exact Nat.lt_irrefl _ (h.closed_lt _ s hs hclosed)
      · have hother : ¬ (p.step operation).1.Grants writer := fun hgrant =>
          hnew (hgrant.unique hgrants)
        have hsame : (p.writers ++ [true])[writer]? = some true ↔
            p.writers[writer]? = some true := by
          rcases Nat.lt_or_ge writer p.writers.length with hlt | hge
          · rw [List.getElem?_append_left hlt]
          · rw [List.getElem?_eq_none (by simp; omega), List.getElem?_eq_none hge]
        rw [hsame, ← Pipe.hasWriter_iff, h.hasWriter_iff, IsAlive]
        simp [hother, hcloses]
    · rw [hwriters, List.length_append]
      exact h.closed_lt_append_singleton (Nat.le_add_right _ _) fun writer hclosed =>
        absurd hclosed (hcloses writer)
  · have hlt : closed < p.writers.length :=
      (List.getElem?_eq_some_iff.1 ((Pipe.hasWriter_iff p closed).1 hopen)).1
    refine ⟨fun writer => ?_, ?_, hreader⟩
    · rw [Pipe.hasWriter_iff, hwriters, isAlive_append_singleton]
      by_cases hsame : writer = closed
      · subst hsame
        refine iff_of_false ?_ fun halive => halive.2.2 hcloses
        rw [List.getElem?_set_self hlt]
        simp
      · have hother : ¬ (p.step operation).1.Closes writer := fun hclosed =>
          hsame (hclosed.unique hcloses)
        rw [List.getElem?_set_ne (Ne.symm hsame), ← Pipe.hasWriter_iff, h.hasWriter_iff, IsAlive]
        simp [hother, hgrants]
    · rw [hwriters, List.length_set]
      exact h.closed_lt_append_singleton le_rfl fun writer hclosed =>
        hclosed.unique hcloses ▸ hlt
  · refine ⟨fun writer => ?_, ?_, hreader⟩
    · rw [Pipe.hasWriter_iff, hwriters, ← Pipe.hasWriter_iff, h.hasWriter_iff,
        isAlive_append_singleton, IsAlive]
      simp [hneither writer]
    · rw [hwriters]
      exact h.closed_lt_append_singleton le_rfl fun writer hclosed =>
        absurd hclosed (hneither writer).2

theorem trace (h : Tells log p) (operations : List (Operation α)) :
    Tells (log ++ (p.trace operations).1) (p.trace operations).2 := by
  induction operations generalizing p log with
  | nil => exact (List.append_nil log).symm ▸ h
  | cons operation operations ih =>
    have hlast := ih (h.step operation)
    rwa [List.append_assoc] at hlast

end Tells

/-! ## Runs on a new ring -/

theorem capacity_trace (p : Pipe α) (operations : List (Operation α)) :
    (p.trace operations).2.ring.capacity = p.ring.capacity := by
  induction operations generalizing p with
  | nil => rfl
  | cons operation operations ih => exact (ih _).trans (p.capacity_perform operation)

theorem writersGone_iff (p : Pipe α) :
    p.writersGone = true ↔ ∀ writer, ¬ p.hasWriter writer = true := by
  simp only [writersGone, Pipe.hasWriter_iff, Bool.not_eq_true', List.any_eq_false, id_eq]
  constructor
  · intro hgone writer hwriter
    exact hgone true (List.mem_of_getElem? hwriter) rfl
  · rintro hnone - hmem rfl
    obtain ⟨writer, hwriter⟩ := List.mem_iff_getElem?.1 hmem
    exact hnone writer hwriter

/-- However a new ring is used and its handles come and go: the slots between the two indices are
those that hold items, no operation overwrites an item or reads an empty slot, and every offered item
is handed back, given up, read, discarded, released with the last handle, or still in the ring, as
often as it was offered. -/
theorem trace_owns (kind : WriterKind) {capacity : UInt64}
    (hcapacity : capacity.toNat.isPowerOfTwo) :
    ∃ p : Pipe α, ofCapacity kind capacity.toNat = .ok p ∧ ∀ operations,
      let log := (p.trace operations).1
      let last := (p.trace operations).2
      last.ring.capacity = capacity.toNat ∧
        (∃ buffered,
          last.ring.OwnsSlots buffered ∧
          last.ring.Releases buffered ∧
          (offeredIn log).Perm ((endedIn log).map Prod.snd ++ buffered) ∧
          (¬ last.IsHeld → buffered = [])) ∧
        (last.IsHeld → ∀ reads, ((·.pop.2)^[reads] last.ring).SafeNext) ∧
        (∀ writer, last.hasWriter writer = true ↔ IsAlive writer log) ∧
        (last.readerOpen = true ↔ ∀ s ∈ log, s.operation ≠ .closeReader) ∧
        (last.writersGone = true ↔ ∀ writer, ¬ IsAlive writer log) := by
  obtain ⟨r, hr, hholds, hsize⟩ := Ring.holds_ofCapacity (α := α) hcapacity
  refine ⟨⟨r, kind, [true], true⟩, by simp [ofCapacity, hr], fun operations => ?_⟩
  have hkeeps : Keeps ⟨r, kind, [true], true⟩ [] := .of_holds hholds (.inl rfl)
  have htells : Tells [] (⟨r, kind, [true], true⟩ : Pipe α) := by
    refine ⟨fun writer => ?_, fun _ _ hs => absurd hs List.not_mem_nil, by simp⟩
    cases writer <;> simp [hasWriter, IsAlive]
  obtain ⟨buffered, hlast, hitems⟩ := hkeeps.trace operations
  have htold := htells.trace operations
  rw [List.nil_append] at htold hitems
  refine ⟨(capacity_trace _ _).trans hsize,
    ⟨buffered, hlast.stores.ownsSlots, hlast.stores.releases, hitems, hlast.gone⟩,
    fun held reads => ((hlast.holds held).iterate_pop reads).safeNext, htold.hasWriter_iff,
    htold.readerOpen_iff, ?_⟩
  rw [writersGone_iff]
  exact forall_congr' fun writer => not_congr (htold.hasWriter_iff writer)

/-- The reader goes first: of two writers the last one to close releases what nobody read. -/
theorem trace_owns_reader_first :
    (2 : UInt64).toNat.isPowerOfTwo ∧
      ∃ p : Pipe Nat, ofCapacity .shared (2 : UInt64).toNat = .ok p ∧
        let run := p.trace [.addWriter 0, .push 0 7, .write 1 8, .push 1 9, .write 0 9, .read,
          .closeReader, .closeWriter 0, .write 1 5, .closeWriter 1]
        offeredIn run.1 = [7, 8, 9, 9, 5] ∧
        [7, 8, 9, 9, 5].Perm ((endedIn run.1).map Prod.snd) ∧
        run.2.writersGone = true ∧ ¬ run.2.IsHeld := by
  have hcapacity : (2 : UInt64).toNat.isPowerOfTwo := ⟨1, rfl⟩
  obtain ⟨p, hp, howns⟩ := trace_owns (α := Nat) .shared hcapacity
  obtain rfl := Except.ok.inj (hp.symm.trans (ofCapacity_eq .shared hcapacity))
  refine ⟨hcapacity, _, hp, ?_⟩
  intro run
  obtain ⟨-, ⟨buffered, -, -, hitems, hgone⟩, -⟩ := howns [.addWriter 0, .push 0 7, .write 1 8,
    .push 1 9, .write 0 9, .read, .closeReader, .closeWriter 0, .write 1 5, .closeWriter 1]
  have hoffered : offeredIn run.1 = [7, 8, 9, 9, 5] := by decide
  have hclosed : run.2.writersGone = true := by decide
  have hreader : run.2.readerOpen = false := by decide
  have hfree : ¬ run.2.IsHeld := by simp [IsHeld, hclosed, hreader]
  rw [hgone hfree, List.append_nil] at hitems
  exact ⟨hoffered, hoffered ▸ hitems, hclosed, hfree⟩

end Pipe

end DepthFeed

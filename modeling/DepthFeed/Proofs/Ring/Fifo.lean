import DepthFeed.Ring.Pipe
import DepthFeed.Proofs.Runs
import DepthFeed.Proofs.Ring.Contents

/-!
# A ring is a bounded queue

`FifoQueue` is a queue of limited capacity behind the same handles as a ring: a list of items,
without slots, indices or copies of them. `Pipe.Operation` lists what is done through the handles.

* `Pipe.Follows`: a pipe whose ring holds the items of a queue, behind the same handles.
* `Pipe.Follows.perform`: an operation answers alike on both and keeps them so.
* `Pipe.run_answers_eq_fifoQueue`: every run on a new ring answers as the queue does, however
  writers and reader alternate and however often the indices wrap.
-/

namespace DepthFeed

/-! ## Operations -/

inductive Handle where
  | writer (index : Nat)
  | reader
deriving DecidableEq, Repr

inductive Pipe.Operation (α : Type) where
  /-- An item is offered, and handed back if it is not taken. -/
  | push (writer : Nat) (item : α)
  /-- An item is offered, and given up if it is not taken. -/
  | write (writer : Nat) (item : α)
  | read
  | readMany (n : Nat)
  | drain
  | discard
  /-- A handle is asked for the capacity and the size of the ring. -/
  | measure (handle : Handle)
  | addWriter (writer : Nat)
  | closeWriter (writer : Nat)
  | closeReader
deriving DecidableEq, Repr

inductive Pipe.Answer (α : Type) where
  /-- The handle was closed before. -/
  | gone
  /-- The item that was handed back, if it was not taken. -/
  | pushed (back : Option α)
  | written (taken : Bool)
  | item (item : Option α)
  | items (items : List α)
  | discarded (count : Nat)
  | measured (capacity size : Nat) (isEmpty isFull : Bool)
  | writer (grant : WriterGrant)
  | closed (wasOpen : Bool)
deriving DecidableEq, Repr

namespace Pipe

variable {α : Type}

def Operation.handle : Operation α → Handle
  | push writer _ | write writer _ | addWriter writer | closeWriter writer => .writer writer
  | measure handle => handle
  | read | readMany _ | drain | discard | closeReader => .reader

def Operation.refusal : Operation α → Answer α
  | addWriter _ => .writer .closed
  | closeWriter _ | closeReader => .closed false
  | _ => .gone

def hasHandle (p : Pipe α) : Handle → Bool
  | .writer index => p.hasWriter index
  | .reader => p.readerOpen

/-- The answer of an operation of the reader, which nobody can ask for once the reader is closed. -/
def asReader (p : Pipe α) (answer : Answer α × Pipe α) : Answer α × Pipe α :=
  if p.readerOpen then answer else (.gone, p)

def perform (p : Pipe α) : Operation α → Answer α × Pipe α
  | .push writer item =>
    let (back, p') := p.push writer item
    ((back.map .pushed).getD .gone, p')
  | .write writer item =>
    let (taken, p') := p.write writer item
    ((taken.map .written).getD .gone, p')
  | .read => p.asReader (.item p.read.1, p.read.2)
  | .readMany n => p.asReader (.items (p.readMany n).1, (p.readMany n).2)
  | .drain => p.asReader (.items p.drain.1, p.drain.2)
  | .discard => p.asReader (.discarded p.discard.1, p.discard.2)
  | .measure handle =>
    if p.hasHandle handle then
      (.measured p.ring.capacity p.ring.size p.ring.isEmpty p.ring.isFull, p)
    else
      (.gone, p)
  | .addWriter writer =>
    let (grant, p') := p.addWriter writer
    (.writer grant, p')
  | .closeWriter writer =>
    let (wasOpen, p') := p.closeWriter writer
    (.closed wasOpen, p')
  | .closeReader =>
    let (wasOpen, p') := p.closeReader
    (.closed wasOpen, p')

def run (p : Pipe α) (operations : List (Operation α)) : List (Answer α) × Pipe α :=
  runWith perform p operations

end Pipe

/-! ## The queue -/

/-- A queue of limited capacity and the handles on it. -/
structure FifoQueue (α : Type) where
  capacity : Nat
  /-- The items in the queue, oldest first. -/
  items : List α
  kind : WriterKind
  writers : List Bool
  readerOpen : Bool
deriving DecidableEq, Repr

namespace FifoQueue

variable {α : Type}

/-- A queue without items, with one writer and a reader. -/
def empty (kind : WriterKind) (capacity : Nat) : FifoQueue α where
  capacity := capacity
  items := []
  kind := kind
  writers := [true]
  readerOpen := true

def hasHandle (q : FifoQueue α) : Handle → Bool
  | .writer index => q.writers[index]? = some true
  | .reader => q.readerOpen

def HasRoom (q : FifoQueue α) : Prop := q.items.length < q.capacity

instance (q : FifoQueue α) : Decidable q.HasRoom := inferInstanceAs (Decidable (_ < _))

/-- The queue with an item at its end, if it has room. -/
def offer (q : FifoQueue α) (item : α) : FifoQueue α :=
  { q with items := if q.HasRoom then q.items ++ [item] else q.items }

/-- The answer of an operation through an open handle, and the queue after it. -/
def performOpen (q : FifoQueue α) : Pipe.Operation α → Pipe.Answer α × FifoQueue α
  | .push _ item => (.pushed (if q.HasRoom then none else some item), q.offer item)
  | .write _ item => (.written q.HasRoom, q.offer item)
  | .read => (.item q.items.head?, { q with items := q.items.tail })
  | .readMany n => (.items (q.items.take n), { q with items := q.items.drop n })
  | .drain => (.items q.items, { q with items := [] })
  | .discard => (.discarded q.items.length, { q with items := [] })
  | .measure _ =>
    (.measured q.capacity q.items.length (q.items.length = 0) (q.capacity ≤ q.items.length), q)
  | .addWriter _ =>
    match q.kind with
    | .single => (.writer .notShared, q)
    | .shared => (.writer (.granted q.writers.length), { q with writers := q.writers ++ [true] })
  | .closeWriter writer => (.closed true, { q with writers := q.writers.set writer false })
  | .closeReader => (.closed true, { q with readerOpen := false })

def perform (q : FifoQueue α) (operation : Pipe.Operation α) : Pipe.Answer α × FifoQueue α :=
  if q.hasHandle operation.handle then q.performOpen operation else (operation.refusal, q)

def run (q : FifoQueue α) (operations : List (Pipe.Operation α)) :
    List (Pipe.Answer α) × FifoQueue α :=
  runWith perform q operations

end FifoQueue

/-! ## The ring behind its handles -/

namespace Pipe

variable {α : Type}

def IsHeld (p : Pipe α) : Prop := p.readerOpen ∨ ¬ p.writersGone

/-- The pipe has the handles of the queue and, while one of them is open, its items. -/
structure Follows (p : Pipe α) (q : FifoQueue α) : Prop where
  kind_eq : p.kind = q.kind
  writers_eq : p.writers = q.writers
  readerOpen_eq : p.readerOpen = q.readerOpen
  capacity_eq : p.IsHeld → p.ring.capacity = q.capacity
  holds : p.IsHeld → p.ring.Holds q.items

theorem isHeld_of_hasHandle {p : Pipe α} {handle : Handle} (h : p.hasHandle handle) : p.IsHeld := by
  cases handle with
  | reader => exact Or.inl h
  | writer index =>
    right
    simp only [hasHandle, hasWriter, decide_eq_true_eq] at h
    simp only [writersGone, Bool.not_eq_true', Bool.not_eq_false, List.any_eq_true]
    exact ⟨true, List.mem_of_getElem? h, rfl⟩

theorem asReader_of_open {p : Pipe α} (h : p.readerOpen) (answer : Answer α × Pipe α) :
    p.asReader answer = answer := if_pos h

theorem perform_of_closed {p : Pipe α} {operation : Operation α}
    (h : p.hasHandle operation.handle = false) : p.perform operation = (operation.refusal, p) := by
  cases operation with
  | push writer item =>
    have hgone : p.hasWriter writer = false := h
    simp [perform, push, hgone, Operation.refusal]
  | write writer item =>
    have hgone : p.hasWriter writer = false := h
    simp [perform, write, push, hgone, Operation.refusal]
  | measure handle =>
    have hgone : p.hasHandle handle = false := h
    simp [perform, hgone, Operation.refusal]
  | addWriter writer =>
    have hgone : p.hasWriter writer = false := h
    simp [perform, addWriter, hgone, Operation.refusal]
  | closeWriter writer =>
    have hgone : p.hasWriter writer = false := h
    simp [perform, closeWriter, hgone, Operation.refusal]
  | closeReader =>
    have hgone : p.readerOpen = false := h
    simp [perform, closeReader, hgone, Operation.refusal]
  | read | readMany | drain | discard =>
    have hgone : p.readerOpen = false := h
    simp [perform, asReader, hgone, Operation.refusal]

namespace Follows

variable {p : Pipe α} {q : FifoQueue α}

theorem hasHandle_eq (h : p.Follows q) (handle : Handle) :
    p.hasHandle handle = q.hasHandle handle := by
  cases handle with
  | writer index => simp [hasHandle, hasWriter, FifoQueue.hasHandle, h.writers_eq]
  | reader => exact h.readerOpen_eq

theorem withRing (h : p.Follows q) {r : Ring α} {items : List α}
    (hcapacity : r.capacity = p.ring.capacity) (hholds : r.Holds items) :
    Follows { p with ring := r } { q with items := items } where
  kind_eq := h.kind_eq
  writers_eq := h.writers_eq
  readerOpen_eq := h.readerOpen_eq
  capacity_eq held := hcapacity.trans (h.capacity_eq held)
  holds _ := hholds

theorem push (h : p.Follows q) {writer : Nat} (hopen : p.hasWriter writer) (item : α) :
    (p.push writer item).1 = some (if q.HasRoom then none else some item) ∧
      (p.push writer item).2.Follows (q.offer item) := by
  have hhandle : p.hasHandle (.writer writer) := hopen
  have held : p.IsHeld := isHeld_of_hasHandle hhandle
  obtain ⟨hback, hholds⟩ := (h.holds held).push item
  rw [h.capacity_eq held] at hback hholds
  simp only [Pipe.push, hopen, if_true, onRing_eq]
  exact ⟨congrArg some hback, h.withRing (Ring.capacity_push p.ring item) hholds⟩

/-- Releasing the items when the last handle closes is seen by nobody. -/
theorem settle (h : p.Follows q) : p.settle.Follows q := by
  unfold Pipe.settle
  split
  · exact h
  · rename_i hgone
    have hfree : ¬ p.IsHeld := by simpa [IsHeld] using hgone
    rw [onRing_eq]
    exact {
      kind_eq := h.kind_eq
      writers_eq := h.writers_eq
      readerOpen_eq := h.readerOpen_eq
      capacity_eq := fun held => absurd held hfree
      holds := fun held => absurd held hfree }

/-- An operation through an open handle answers as on the queue. -/
theorem performOpen (h : p.Follows q) {operation : Operation α}
    (hopen : p.hasHandle operation.handle) :
    (p.perform operation).1 = (q.performOpen operation).1 ∧
      (p.perform operation).2.Follows (q.performOpen operation).2 := by
  have held : p.IsHeld := isHeld_of_hasHandle hopen
  have hholds := h.holds held
  have hcapacity := h.capacity_eq held
  cases operation with
  | push writer item =>
    obtain ⟨hback, hnext⟩ := h.push hopen item
    refine ⟨?_, hnext⟩
    simp only [perform, hback, FifoQueue.performOpen]
    rfl
  | write writer item =>
    obtain ⟨hback, hnext⟩ := h.push hopen item
    refine ⟨?_, hnext⟩
    simp only [perform, write, hback, FifoQueue.performOpen]
    by_cases hroom : q.HasRoom <;> simp [hroom]
  | read =>
    obtain ⟨hitem, hrest⟩ := hholds.pop
    rw [perform, asReader_of_open hopen, Pipe.read, onRing_eq, hitem]
    exact ⟨rfl, h.withRing (Ring.capacity_pop p.ring) hrest⟩
  | readMany n =>
    obtain ⟨hitems, hrest⟩ := hholds.readMany n
    rw [perform, asReader_of_open hopen, Pipe.readMany, onRing_eq, hitems]
    exact ⟨rfl, h.withRing (Ring.capacity_readMany p.ring n) hrest⟩
  | drain =>
    obtain ⟨hitems, hrest⟩ := hholds.drain
    rw [perform, asReader_of_open hopen, Pipe.drain, onRing_eq, hitems]
    exact ⟨rfl, h.withRing (Ring.capacity_drain p.ring) hrest⟩
  | discard =>
    obtain ⟨hitems, hrest⟩ := hholds.drain
    rw [perform, asReader_of_open hopen, Pipe.discard, Pipe.drain, onRing_eq, hitems]
    exact ⟨rfl, h.withRing (Ring.capacity_drain p.ring) hrest⟩
  | measure handle =>
    have hhandle : p.hasHandle handle = true := hopen
    simp only [perform, hhandle, if_true, FifoQueue.performOpen, hholds.isEmpty_eq, hholds.isFull_eq,
      hholds.size_eq_length, hcapacity]
    exact ⟨trivial, h⟩
  | addWriter writer =>
    have hwriter : p.hasWriter writer = true := hopen
    simp only [perform, Pipe.addWriter, hwriter, if_true, FifoQueue.performOpen, ← h.kind_eq]
    cases hkind : p.kind with
    | single => exact ⟨rfl, h⟩
    | shared =>
      refine ⟨by rw [h.writers_eq], ?_⟩
      exact {
        kind_eq := rfl
        writers_eq := congrArg (· ++ [true]) h.writers_eq
        readerOpen_eq := h.readerOpen_eq
        capacity_eq := fun _ => hcapacity
        holds := fun _ => hholds }
  | closeWriter writer =>
    have hwriter : p.hasWriter writer = true := hopen
    simp only [perform, Pipe.closeWriter, hwriter, if_true]
    refine ⟨rfl, settle ?_⟩
    exact {
      kind_eq := h.kind_eq
      writers_eq := congrArg (·.set writer false) h.writers_eq
      readerOpen_eq := h.readerOpen_eq
      capacity_eq := fun _ => hcapacity
      holds := fun _ => hholds }
  | closeReader =>
    have hreader : p.readerOpen = true := hopen
    simp only [perform, Pipe.closeReader, hreader, if_true]
    refine ⟨rfl, settle ?_⟩
    exact {
      kind_eq := h.kind_eq
      writers_eq := h.writers_eq
      readerOpen_eq := rfl
      capacity_eq := fun _ => hcapacity
      holds := fun _ => hholds }

theorem perform (h : p.Follows q) (operation : Operation α) :
    (p.perform operation).1 = (q.perform operation).1 ∧
      (p.perform operation).2.Follows (q.perform operation).2 := by
  unfold FifoQueue.perform
  by_cases hopen : p.hasHandle operation.handle
  · rw [if_pos (h.hasHandle_eq _ ▸ hopen)]
    exact h.performOpen hopen
  · rw [if_neg (h.hasHandle_eq _ ▸ hopen), perform_of_closed (by simpa using hopen)]
    exact ⟨rfl, h⟩

end Follows

/-- A new ring has empty slots, one writer and its reader. -/
theorem ofCapacity_eq (kind : WriterKind) {capacity : Nat} (hcapacity : capacity.isPowerOfTwo) :
    (ofCapacity kind capacity : Except RingError (Pipe α)) =
      .ok ⟨⟨Array.replicate capacity none, 0, 0, 0, 0⟩, kind, [true], true⟩ := by
  simp [ofCapacity, Ring.ofCapacity, hcapacity]

theorem follows_ofCapacity (kind : WriterKind) {capacity : UInt64}
    (hcapacity : capacity.toNat.isPowerOfTwo) :
    ∃ p : Pipe α, ofCapacity kind capacity.toNat = .ok p ∧
      p.Follows (.empty kind capacity.toNat) := by
  obtain ⟨r, hr, hholds, hsize⟩ := Ring.holds_ofCapacity (α := α) hcapacity
  refine ⟨⟨r, kind, [true], true⟩, by simp [ofCapacity, hr], ?_⟩
  exact {
    kind_eq := rfl
    writers_eq := rfl
    readerOpen_eq := rfl
    capacity_eq := fun _ => hsize
    holds := fun _ => hholds }

/-- A run on a new ring answers as the queue does, and leaves the items of the queue in it. -/
theorem run_follows (kind : WriterKind) {capacity : UInt64}
    (hcapacity : capacity.toNat.isPowerOfTwo) :
    ∃ p : Pipe α, ofCapacity kind capacity.toNat = .ok p ∧
      ∀ operations,
        (p.run operations).1 = ((FifoQueue.empty kind capacity.toNat).run operations).1 ∧
          (p.run operations).2.Follows ((FifoQueue.empty kind capacity.toNat).run operations).2 := by
  obtain ⟨p, hp, hfollows⟩ := follows_ofCapacity (α := α) kind hcapacity
  refine ⟨p, hp, fun operations => ?_⟩
  exact runWith_simulation (fun _ _ operation h => Follows.perform h operation) hfollows operations

/-- A run on a new ring of any capacity answers as the queue of that capacity does. -/
theorem run_answers_eq_fifoQueue (kind : WriterKind) {capacity : UInt64}
    (hcapacity : capacity.toNat.isPowerOfTwo) :
    ∃ p : Pipe α, ofCapacity kind capacity.toNat = .ok p ∧
      ∀ operations,
        (p.run operations).1 = ((FifoQueue.empty kind capacity.toNat).run operations).1 := by
  obtain ⟨p, hp, hfollows⟩ := run_follows (α := α) kind hcapacity
  exact ⟨p, hp, fun operations => (hfollows operations).1⟩

/-- Two writers share a ring of two slots; the third item finds no room until one was read. -/
theorem run_answers_two_writers :
    (2 : UInt64).toNat.isPowerOfTwo ∧
      ∃ p : Pipe Nat, ofCapacity .shared (2 : UInt64).toNat = .ok p ∧
        (p.run [.addWriter 0, .push 0 7, .write 1 8, .push 1 9, .read, .write 0 9, .closeWriter 0,
          .push 0 5, .measure .reader, .discard, .read]).1 =
          [.writer (.granted 1), .pushed none, .written true, .pushed (some 9), .item (some 7),
            .written true, .closed true, .gone, .measured 2 2 false true, .discarded 2,
            .item none] := by
  have hcapacity : (2 : UInt64).toNat.isPowerOfTwo := ⟨1, rfl⟩
  obtain ⟨p, hp, hrun⟩ := run_answers_eq_fifoQueue (α := Nat) .shared hcapacity
  exact ⟨hcapacity, p, hp, by rw [hrun]; rfl⟩

end Pipe

end DepthFeed

import DepthFeed.Proofs.Ring.Fifo

/-!
# What the handles of a ring go through

An operation on a ring hands out a writer, closes a handle, or leaves all handles as they are. The
capacity of the ring stays the same in any case.

* `Pipe.SameHandles`: the same handles on a ring of the same capacity.
* `Pipe.write_of_holds`: what becomes of an item that is offered to a ring.
* `Pipe.perform_cases`: what an operation does to the handles, and what it answers then.
* `Pipe.capacity_perform`, `Pipe.readerOpen_perform`: what follows for the capacity and the reader.
-/

namespace DepthFeed.Pipe

variable {α : Type}

/-- The same handles on a ring of the same capacity. -/
structure SameHandles (p p' : Pipe α) : Prop where
  kind_eq : p'.kind = p.kind
  writers_eq : p'.writers = p.writers
  readerOpen_eq : p'.readerOpen = p.readerOpen
  capacity_eq : p'.ring.capacity = p.ring.capacity

namespace SameHandles

variable {p p' p'' : Pipe α}

theorem refl (p : Pipe α) : p.SameHandles p := ⟨rfl, rfl, rfl, rfl⟩

theorem trans (h : p.SameHandles p') (h' : p'.SameHandles p'') : p.SameHandles p'' where
  kind_eq := h'.kind_eq.trans h.kind_eq
  writers_eq := h'.writers_eq.trans h.writers_eq
  readerOpen_eq := h'.readerOpen_eq.trans h.readerOpen_eq
  capacity_eq := h'.capacity_eq.trans h.capacity_eq

theorem isHeld (h : p.SameHandles p') (held : p.IsHeld) : p'.IsHeld := by
  rwa [IsHeld, writersGone, h.writers_eq, h.readerOpen_eq]

/-! ## Operations that move items -/

theorem push (p : Pipe α) (writer : Nat) (item : α) : p.SameHandles (p.push writer item).2 := by
  unfold Pipe.push
  split
  · exact ⟨rfl, rfl, rfl, Ring.capacity_push p.ring item⟩
  · exact .refl p

theorem write (p : Pipe α) (writer : Nat) (item : α) : p.SameHandles (p.write writer item).2 :=
  .push p writer item

theorem read (p : Pipe α) : p.SameHandles p.read.2 := ⟨rfl, rfl, rfl, Ring.capacity_pop p.ring⟩

theorem readMany (p : Pipe α) (n : Nat) : p.SameHandles (p.readMany n).2 :=
  ⟨rfl, rfl, rfl, Ring.capacity_readMany p.ring n⟩

theorem drain (p : Pipe α) : p.SameHandles p.drain.2 := ⟨rfl, rfl, rfl, Ring.capacity_drain p.ring⟩

theorem settle (p : Pipe α) : p.SameHandles p.settle := by
  unfold Pipe.settle
  split
  · exact .refl p
  · exact ⟨rfl, rfl, rfl, Ring.capacity_release p.ring⟩

end SameHandles

/-! ## Items and writers -/

/-- An item offered to a ring is taken exactly if its writer is open and there is room. -/
theorem write_of_holds {p : Pipe α} {items : List α} (hholds : p.ring.Holds items) (writer : Nat)
    (item : α) :
    ((p.write writer item).1 = some true ↔
        p.hasWriter writer = true ∧ items.length < p.ring.capacity) ∧
      (p.write writer item).2.ring.Holds
        (if (p.write writer item).1 = some true then items ++ [item] else items) ∧
      p.SameHandles (p.write writer item).2 := by
  obtain ⟨hback, hnext⟩ := hholds.push item
  rw [← and_assoc]
  refine ⟨?_, .write p writer item⟩
  by_cases hopen : p.hasWriter writer
  · by_cases hroom : items.length < p.ring.capacity
    · rw [if_pos hroom] at hback hnext
      simp [Pipe.write, Pipe.push, hopen, onRing_eq, hback, hroom, hnext]
    · rw [if_neg hroom] at hback hnext
      simp [Pipe.write, Pipe.push, hopen, onRing_eq, hback, hroom, hnext]
  · simp [Pipe.write, Pipe.push, hopen, hholds]

theorem addWriter_keeps (p : Pipe α) (writer : Nat) :
    (p.addWriter writer).2.ring = p.ring ∧ (p.addWriter writer).2.readerOpen = p.readerOpen := by
  unfold addWriter
  split
  · split <;> exact ⟨rfl, rfl⟩
  · exact ⟨rfl, rfl⟩

theorem closeWriter_keeps (p : Pipe α) (hopen : p.readerOpen = true) (writer : Nat) :
    (p.closeWriter writer).2.ring = p.ring ∧
      (p.closeWriter writer).2.readerOpen = p.readerOpen := by
  unfold closeWriter
  split
  · simp [settle, hopen]
  · exact ⟨rfl, rfl⟩

/-! ## Any operation -/

/-- An operation of the reader that does nothing to the handles. -/
theorem SameHandles.asReader {p : Pipe α} {answer : Answer α × Pipe α}
    (h : p.SameHandles answer.2) : p.SameHandles (p.asReader answer).2 := by
  unfold Pipe.asReader
  split
  · exact h
  · exact .refl p

/-- An operation does nothing to the handles, hands out a writer, or closes a handle, and tells so. -/
theorem perform_cases (p : Pipe α) (operation : Operation α) :
    (p.SameHandles (p.perform operation).2 ∧ (p.perform operation).1 ≠ .closed true ∧
        ∀ writer, (p.perform operation).1 ≠ .writer (.granted writer)) ∨
      (∃ writer, operation = .addWriter writer ∧ p.hasWriter writer = true ∧ p.kind = .shared ∧
        p.perform operation =
          (.writer (.granted p.writers.length), { p with writers := p.writers ++ [true] })) ∨
      (∃ writer, operation = .closeWriter writer ∧ p.hasWriter writer = true ∧
        p.perform operation =
          (.closed true, { p with writers := p.writers.set writer false }.settle)) ∨
      (operation = .closeReader ∧ p.readerOpen = true ∧
        p.perform operation = (.closed true, { p with readerOpen := false }.settle)) := by
  by_cases hopen : p.hasHandle operation.handle
  · cases operation with
    | push writer item =>
      have hwriter : p.hasWriter writer = true := hopen
      exact .inl ⟨.push p writer item, by simp [perform, Pipe.push, hwriter]⟩
    | write writer item =>
      have hwriter : p.hasWriter writer = true := hopen
      exact .inl ⟨.write p writer item, by simp [perform, Pipe.write, Pipe.push, hwriter]⟩
    | read => exact .inl ⟨.asReader (.read p), by simp [perform, asReader_of_open hopen]⟩
    | readMany n =>
      exact .inl ⟨.asReader (.readMany p n), by simp [perform, asReader_of_open hopen]⟩
    | drain => exact .inl ⟨.asReader (.drain p), by simp [perform, asReader_of_open hopen]⟩
    | discard => exact .inl ⟨.asReader (.drain p), by simp [perform, asReader_of_open hopen]⟩
    | measure handle =>
      have hhandle : p.hasHandle handle = true := hopen
      simp [perform, hhandle, SameHandles.refl]
    | addWriter writer =>
      have hwriter : p.hasWriter writer = true := hopen
      cases hkind : p.kind <;> simp [perform, Pipe.addWriter, hwriter, hkind, SameHandles.refl]
    | closeWriter writer =>
      have hwriter : p.hasWriter writer = true := hopen
      exact .inr (.inr (.inl ⟨writer, rfl, hwriter, by simp [perform, Pipe.closeWriter, hwriter]⟩))
    | closeReader =>
      have hreader : p.readerOpen = true := hopen
      exact .inr (.inr (.inr ⟨rfl, hreader, by simp [perform, Pipe.closeReader, hreader]⟩))
  · rw [perform_of_closed (by simpa using hopen)]
    refine .inl ⟨.refl p, ?_⟩
    cases operation <;> simp [Operation.refusal]

theorem capacity_perform (p : Pipe α) (operation : Operation α) :
    (p.perform operation).2.ring.capacity = p.ring.capacity := by
  rcases p.perform_cases operation with ⟨hsame, -⟩ | ⟨writer, -, -, -, hgranted⟩ |
    ⟨writer, -, -, hclosed⟩ | ⟨-, -, hclosed⟩
  · exact hsame.capacity_eq
  · rw [hgranted]
  · rw [hclosed, (SameHandles.settle _).capacity_eq]
  · rw [hclosed, (SameHandles.settle _).capacity_eq]

theorem readerOpen_perform (p : Pipe α) (operation : Operation α) :
    (p.perform operation).2.readerOpen = true ↔
      p.readerOpen = true ∧ operation ≠ .closeReader := by
  rcases p.perform_cases operation with ⟨hsame, hnone, -⟩ | ⟨writer, rfl, -, -, hgranted⟩ |
    ⟨writer, rfl, -, hclosed⟩ | ⟨rfl, -, hclosed⟩
  · rw [hsame.readerOpen_eq]
    refine ⟨fun hreader => ⟨hreader, ?_⟩, And.left⟩
    rintro rfl
    exact hnone (by simp [perform, Pipe.closeReader, hreader])
  · simp [hgranted]
  · simp [hclosed, (SameHandles.settle _).readerOpen_eq]
  · simp [hclosed, (SameHandles.settle _).readerOpen_eq]

end DepthFeed.Pipe

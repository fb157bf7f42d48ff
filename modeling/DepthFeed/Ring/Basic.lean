/-!
# Ring buffers

A ring of `2 ^ k` slots between one reader and its writers. Two 64-bit indices count what was read
and written, modulo `2 ^ 64`; an index masked to the capacity is a slot. Writers and reader decide
on their own copies of the other index and look again only when the ring seems full or empty.

* `push`, `pop`: one item in, the oldest item out.
* `readMany`, `drain`: several items out; `drain` stops at the first refusal.
* `release`: the items still in the slots when nobody holds the ring any longer.
* `backlog_lt_of_pop`: each item that comes out leaves less to read, so draining ends.
* `readMany_succ`, `drain_eq`, `release_eq`: the first item, and then the others.

Reading several items keeps those already read in a list of their own, latest first, so that it
takes no stack however many there are.
-/

namespace DepthFeed

inductive RingError where
  | notPowerOfTwo (capacity : Nat)
deriving DecidableEq, Repr

def RingError.message : RingError → String
  | .notPowerOfTwo capacity =>
    "ring buffer capacity must be a non-zero power of two, got " ++ toString capacity

/-- Slots, the indices of reader and writers, and the copies on which they decide. -/
structure Ring (α : Type) where
  /-- The slots; one that holds no item is `none`. -/
  slots : Array (Option α)
  readIndex : UInt64
  writeIndex : UInt64
  /-- The read index as the writers last saw it. -/
  knownRead : UInt64
  /-- The write index as the reader last saw it. -/
  knownWrite : UInt64
deriving DecidableEq, Repr

namespace Ring

variable {α : Type}

/-- An empty ring, if the capacity is a power of two. -/
def ofCapacity (capacity : Nat) : Except RingError (Ring α) :=
  if capacity.isPowerOfTwo then
    .ok {
      slots := Array.replicate capacity none
      readIndex := 0
      writeIndex := 0
      knownRead := 0
      knownWrite := 0 }
  else
    .error (.notPowerOfTwo capacity)

def capacity (r : Ring α) : Nat := r.slots.size

def size (r : Ring α) : Nat := min (r.writeIndex - r.readIndex).toNat r.capacity

def isEmpty (r : Ring α) : Bool := r.size = 0

def isFull (r : Ring α) : Bool := r.capacity ≤ r.size

def slotOf (r : Ring α) (index : UInt64) : Nat := (index &&& (UInt64.ofNat r.capacity - 1)).toNat

def live (r : Ring α) : Nat := r.slots.countP Option.isSome

/-! ## Writing -/

/-- Whether the writers see no free slot. -/
def seemsFull (r : Ring α) : Bool := r.capacity ≤ (r.writeIndex - r.knownRead).toNat

/-- The ring after the writers look at the read index, if they see no free slot. -/
def lookBehind (r : Ring α) : Ring α :=
  if r.seemsFull then { r with knownRead := r.readIndex } else r

/-- The ring after one item is offered, and the item itself if there is no room. -/
def push (r : Ring α) (item : α) : Option α × Ring α :=
  let r := r.lookBehind
  if r.seemsFull then
    (some item, r)
  else
    (none,
      { r with
        slots := r.slots.setIfInBounds (r.slotOf r.writeIndex) (some item)
        writeIndex := r.writeIndex + 1 })

/-! ## Reading -/

/-- Whether the reader sees no item. -/
def seemsEmpty (r : Ring α) : Bool := r.readIndex = r.knownWrite

/-- The ring after the reader looks at the write index, if it sees no item. -/
def lookAhead (r : Ring α) : Ring α :=
  if r.seemsEmpty then { r with knownWrite := r.writeIndex } else r

def oldest? (r : Ring α) : Option α := r.slots[r.slotOf r.readIndex]?.join

/-- The ring with the slot of the read index given up. -/
def dropOldest (r : Ring α) : Ring α :=
  { r with
    slots := r.slots.setIfInBounds (r.slotOf r.readIndex) none
    readIndex := r.readIndex + 1 }

/-- The oldest item, if the reader sees any, and the ring without it. -/
def pop (r : Ring α) : Option α × Ring α :=
  let r := r.lookAhead
  if r.seemsEmpty then (none, r) else (r.oldest?, r.dropOldest)

/-- The items read before and the next `n`, or fewer when a read is refused, latest first, and the
ring without them. -/
def readOnto (r : Ring α) (before : List α) : Nat → List α × Ring α
  | 0 => (before, r)
  | n + 1 =>
    match r.pop with
    | (none, r') => (before, r')
    | (some item, r') => r'.readOnto (item :: before) n

/-- The next `n` items, or fewer when a read is refused, and the ring without them. -/
def readMany (r : Ring α) (n : Nat) : List α × Ring α :=
  let (items, last) := r.readOnto [] n
  (items.reverse, last)

theorem readOnto_eq (r : Ring α) (before : List α) (n : Nat) :
    r.readOnto before n = ((r.readMany n).1.reverse ++ before, (r.readMany n).2) := by
  induction n generalizing r before with
  | zero => rfl
  | succ n ih =>
    simp only [readMany, readOnto]
    cases r.pop with
    | mk answer r' =>
      cases answer with
      | none => rfl
      | some item => simp [ih]

theorem readMany_succ (r : Ring α) (n : Nat) :
    r.readMany (n + 1) =
      match r.pop with
      | (none, r') => ([], r')
      | (some item, r') => (item :: (r'.readMany n).1, (r'.readMany n).2) := by
  rw [readMany, readOnto]
  cases r.pop with
  | mk answer r' =>
    cases answer with
    | none => rfl
    | some item => simp [readOnto_eq]

/-- How much the reader may still see: what its copy of the write index shows, and a whole round of
the indices while that copy is out of date. -/
def backlog (r : Ring α) : Nat :=
  (if r.knownWrite = r.writeIndex then 0 else 0x1_0000_0000_0000_0000) + (r.knownWrite - r.readIndex).toNat

theorem toNat_sub_add_one_lt {a b : UInt64} (h : b ≠ a) : (a - (b + 1)).toNat < (a - b).toNat := by
  have hne : a.toNat ≠ b.toNat := fun e => h (UInt64.toNat_inj.mp e).symm
  have ha := a.toNat_lt
  have hb := b.toNat_lt
  rw [UInt64.toNat_sub, UInt64.toNat_sub, UInt64.toNat_add]
  simp only [UInt64.toNat_one]
  omega

/-- An item that comes out leaves less to read. -/
theorem backlog_lt_of_pop {r r' : Ring α} {item : α} (h : r.pop = (some item, r')) :
    r'.backlog < r.backlog := by
  unfold pop at h
  simp only at h
  split at h
  · simp at h
  · rename_i hsees
    simp only [Prod.mk.injEq] at h
    obtain ⟨-, rfl⟩ := h
    have hne : r.lookAhead.readIndex ≠ r.lookAhead.knownWrite := by
      simpa [seemsEmpty] using hsees
    have hstep := toNat_sub_add_one_lt hne
    unfold lookAhead at hne hstep ⊢
    by_cases hempty : r.seemsEmpty
    · have heq : r.readIndex = r.knownWrite := by simpa [seemsEmpty] using hempty
      have hold : r.knownWrite ≠ r.writeIndex := by
        simp only [hempty, if_true] at hne
        rwa [← heq]
      have hbound := (r.writeIndex - r.readIndex).toNat_lt
      simp only [hempty, if_true, dropOldest, backlog, hold, if_false] at hstep ⊢
      omega
    · simp only [hempty, dropOldest, backlog] at hstep ⊢
      simp only [Bool.false_eq_true, if_false] at hstep ⊢
      split <;> omega

/-- The items read before and all that the reader gets before it is refused, latest first, and the
ring without them. -/
def drainOnto (r : Ring α) (before : List α) : List α × Ring α :=
  match _h : r.pop with
  | (none, r') => (before, r')
  | (some item, r') => r'.drainOnto (item :: before)
termination_by r.backlog
decreasing_by exact backlog_lt_of_pop ‹_›

/-- All items that the reader gets before it is refused, and the ring without them. -/
def drain (r : Ring α) : List α × Ring α :=
  let (items, last) := r.drainOnto []
  (items.reverse, last)

theorem drainOnto_of_none {r r' : Ring α} (h : r.pop = (none, r')) (before : List α) :
    r.drainOnto before = (before, r') := by
  rw [drainOnto]
  split
  · rename_i heq
    rw [h] at heq
    cases heq
    rfl
  · rename_i heq
    rw [h] at heq
    cases heq

theorem drainOnto_of_some {r r' : Ring α} {item : α} (h : r.pop = (some item, r'))
    (before : List α) : r.drainOnto before = r'.drainOnto (item :: before) := by
  rw [drainOnto]
  split
  · rename_i heq
    rw [h] at heq
    cases heq
  · rename_i heq
    rw [h] at heq
    cases heq
    rfl

theorem drainOnto_append (r : Ring α) (before earlier : List α) :
    r.drainOnto (before ++ earlier) =
      ((r.drainOnto before).1 ++ earlier, (r.drainOnto before).2) := by
  fun_induction drainOnto r before with
  | case1 r before r' h => rw [drainOnto_of_none h]
  | case2 r before item r' h ih => rw [drainOnto_of_some h, ← List.cons_append, ih]

theorem drain_eq (r : Ring α) :
    r.drain =
      match r.pop with
      | (none, r') => ([], r')
      | (some item, r') => (item :: r'.drain.1, r'.drain.2) := by
  cases h : r.pop with
  | mk answer r' =>
    cases answer with
    | none => simp [drain, drainOnto_of_none h]
    | some item =>
      have hon := drainOnto_append r' [] [item]
      rw [List.nil_append] at hon
      simp [drain, drainOnto_of_some h, hon]

/-! ## Release -/

/-- The items given up before and those in the slots from the read index to the write index, latest
first, and the ring without them. -/
def releaseOnto (r : Ring α) (before : List α) : List α × Ring α :=
  if _h : r.readIndex = r.writeIndex then
    (before, r)
  else
    let oldest := r.oldest?
    r.dropOldest.releaseOnto (oldest.toList ++ before)
termination_by (r.writeIndex - r.readIndex).toNat
decreasing_by exact toNat_sub_add_one_lt ‹_›

/-- The items in the slots from the read index to the write index, and the ring without them. -/
def release (r : Ring α) : List α × Ring α :=
  let (items, last) := r.releaseOnto []
  (items.reverse, last)

theorem releaseOnto_append (r : Ring α) (before earlier : List α) :
    r.releaseOnto (before ++ earlier) =
      ((r.releaseOnto before).1 ++ earlier, (r.releaseOnto before).2) := by
  fun_induction releaseOnto r before with
  | case1 r before h => rw [releaseOnto, dif_pos h]
  | case2 r before h oldest ih =>
    rw [releaseOnto, dif_neg h]
    dsimp only
    rw [← List.append_assoc]
    exact ih

theorem release_eq (r : Ring α) :
    r.release =
      if r.readIndex = r.writeIndex then ([], r)
      else (r.oldest?.toList ++ r.dropOldest.release.1, r.dropOldest.release.2) := by
  split
  · rename_i h
    simp [release, releaseOnto, h]
  · rename_i h
    have hon := releaseOnto_append r.dropOldest [] r.oldest?.toList
    rw [List.nil_append] at hon
    rw [release, releaseOnto, dif_neg h]
    dsimp only
    rw [List.append_nil, hon]
    cases r.oldest? <;> simp [release]

end Ring

end DepthFeed

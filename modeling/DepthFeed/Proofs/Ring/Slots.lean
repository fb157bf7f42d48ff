import Mathlib.Logic.Function.Iterate
import DepthFeed.Proofs.Ring.Contents

/-!
# The slots that hold items

Which slots of a ring hold an item, and which of them the next operation touches.

* `Ring.OwnsSlots`: the slots from the read index to the write index hold the items, in order, and no
  other slot holds any.
* `Ring.Releases`: releasing the ring takes as many steps as there are items, each on a slot that holds
  one.
* `Ring.SafeNext`: an offered item goes to a slot that holds none, and an item is read from a slot that
  holds one.
-/

namespace DepthFeed.Ring

variable {α : Type} {r : Ring α} {q : List α}

/-- The slot holds an item. -/
def Occupied (r : Ring α) (slot : Nat) : Prop := ∃ item, r.slots[slot]? = some (some item)

/-- The slots between the two indices hold the items, oldest first, and no other slot holds any. -/
structure OwnsSlots (r : Ring α) (items : List α) : Prop where
  distance_eq : (r.writeIndex - r.readIndex).toNat = items.length
  length_le : items.length ≤ r.capacity
  slotOf_lt (index : UInt64) : r.slotOf index < r.capacity
  item_eq (i : Nat) (h : i < items.length) :
    r.slots[r.slotOf (r.readIndex + .ofNat i)]? = some (some items[i])
  occupied_iff (slot : Nat) :
    r.Occupied slot ↔
      ∃ i < (r.writeIndex - r.readIndex).toNat, r.slotOf (r.readIndex + .ofNat i) = slot

/-- Releasing the ring gives up its items one by one, each from a slot that holds it. -/
structure Releases (r : Ring α) (items : List α) : Prop where
  release_eq : r.release = (items, dropOldest^[items.length] r)
  goes_on (k : Nat) (h : k < items.length) :
    (dropOldest^[k] r).readIndex ≠ (dropOldest^[k] r).writeIndex ∧
      (dropOldest^[k] r).oldest? = some items[k]
  ends : (dropOldest^[items.length] r).readIndex = (dropOldest^[items.length] r).writeIndex

/-- Whatever is done next, no item is overwritten and no empty slot is read. -/
structure SafeNext (r : Ring α) : Prop where
  vacant_of_room : ¬ r.lookBehind.seemsFull →
    r.lookBehind.slots[r.lookBehind.slotOf r.lookBehind.writeIndex]? = some none
  occupied_of_item : ¬ r.lookAhead.seemsEmpty →
    r.lookAhead.Occupied (r.lookAhead.slotOf r.lookAhead.readIndex)
  push_keeps (item kept : α) (slot : Nat) :
    r.slots[slot]? = some (some kept) → (r.push item).2.slots[slot]? = some (some kept)

/-! ## Slots -/

/-- Every slot comes up in a round from any index on. -/
theorem exists_add_mod_eq {c slot : Nat} (hslot : slot < c) (a : Nat) :
    ∃ i < c, (a + i) % c = slot := by
  have hpos : 0 < c := by omega
  have ha : a % c < c := Nat.mod_lt a hpos
  have hround : a + (slot + (c - a % c)) = slot + c * (a / c + 1) := by
    have hsplit := Nat.mod_add_div a c
    rw [Nat.mul_add, Nat.mul_one]
    omega
  refine ⟨(slot + (c - a % c)) % c, Nat.mod_lt _ hpos, ?_⟩
  rw [Nat.add_mod_mod, hround, Nat.add_mul_mod_self_left, Nat.mod_eq_of_lt hslot]

namespace Stores

theorem exists_slotOf_eq (h : r.Stores q) {slot : Nat} (hslot : slot < r.capacity) :
    ∃ i < r.capacity, r.slotOf (r.readIndex + .ofNat i) = slot := by
  obtain ⟨k, hk, hcapacity⟩ := h.capacity_eq
  obtain ⟨i, hi, heq⟩ := exists_add_mod_eq hslot r.readIndex.toNat
  refine ⟨i, hi, ?_⟩
  rw [slotOf_add hk hcapacity]
  exact heq

theorem item_eq (h : r.Stores q) {i : Nat} (hi : i < q.length) :
    r.slots[r.slotOf (r.readIndex + .ofNat i)]? = some (some q[i]) := by
  rw [h.slot_eq i (hi.trans_le h.length_le), List.getElem?_eq_getElem hi]

theorem occupied_iff (h : r.Stores q) (slot : Nat) :
    r.Occupied slot ↔ ∃ i < q.length, r.slotOf (r.readIndex + .ofNat i) = slot := by
  constructor
  · rintro ⟨item, hitem⟩
    have hslot : slot < r.capacity := (Array.getElem?_eq_some_iff.1 hitem).1
    obtain ⟨i, hi, rfl⟩ := h.exists_slotOf_eq hslot
    rw [h.slot_eq i hi] at hitem
    exact ⟨i, (List.getElem?_eq_some_iff.1 (Option.some.inj hitem)).1, rfl⟩
  · rintro ⟨i, hi, rfl⟩
    exact ⟨q[i], h.item_eq hi⟩

theorem ownsSlots (h : r.Stores q) : r.OwnsSlots q where
  distance_eq := h.distance_eq
  length_le := h.length_le
  slotOf_lt := h.slotOf_lt
  item_eq _ hi := h.item_eq hi
  occupied_iff slot := by rw [h.occupied_iff, h.distance_eq]

/-! ## Release -/

/-- Each step of a release gives up the oldest item. -/
theorem iterate_dropOldest (h : r.Stores q) {k : Nat} (hk : k ≤ q.length) :
    (Ring.dropOldest^[k] r).Stores (q.drop k) := by
  induction k with
  | zero => exact h
  | succ k ih =>
    rw [Function.iterate_succ_apply']
    have hbefore := ih (by omega)
    rw [List.drop_eq_getElem_cons (show k < q.length by omega)] at hbefore
    exact hbefore.dropOldest

theorem readIndex_eq_writeIndex_iff (h : r.Stores q) :
    r.readIndex = r.writeIndex ↔ q = [] := by
  rw [← List.length_eq_zero_iff, ← h.distance_eq, toNat_sub_eq_zero_iff, eq_comm]

theorem release_eq (h : r.Stores q) : r.release = (q, Ring.dropOldest^[q.length] r) := by
  induction q generalizing r with
  | nil =>
    rw [Ring.release_eq, if_pos (h.readIndex_eq_writeIndex_iff.2 rfl)]
    rfl
  | cons item q ih =>
    have hne : ¬ r.readIndex = r.writeIndex := by
      rw [h.readIndex_eq_writeIndex_iff]
      exact List.cons_ne_nil item q
    rw [Ring.release_eq, if_neg hne, h.oldest?, ih h.dropOldest]
    rfl

theorem releases (h : r.Stores q) : r.Releases q where
  release_eq := h.release_eq
  goes_on k hk := by
    have hrest := h.iterate_dropOldest hk.le
    rw [List.drop_eq_getElem_cons hk] at hrest
    refine ⟨?_, hrest.oldest?⟩
    rw [Ne, hrest.readIndex_eq_writeIndex_iff]
    exact List.cons_ne_nil _ _
  ends := by
    have hrest := h.iterate_dropOldest le_rfl
    exact hrest.readIndex_eq_writeIndex_iff.2 List.drop_length

theorem release (h : r.Stores q) :
    r.release.1 = q ∧ r.release.2.Stores [] := by
  rw [h.release_eq]
  refine ⟨rfl, ?_⟩
  have hrest := h.iterate_dropOldest le_rfl
  rwa [List.drop_length] at hrest

end Stores

/-! ## The next operation -/

namespace Holds

/-- Writers that see a free slot are right: the next slot to write to holds no item. -/
theorem vacant_of_room (h : r.Holds q) (hroom : ¬ r.lookBehind.seemsFull) :
    r.lookBehind.slots[r.lookBehind.slotOf r.lookBehind.writeIndex]? = some none := by
  have hbehind := h.lookBehind
  have hlength : q.length < r.lookBehind.capacity := by
    rw [h.seemsFull_lookBehind] at hroom
    rw [capacity_lookBehind]
    omega
  rw [hbehind.writeIndex_eq, hbehind.slot_eq _ hlength, List.getElem?_eq_none le_rfl]

/-- A reader that sees an item is right: the next slot to read from holds one. -/
theorem occupied_of_item (h : r.Holds q) (hsees : ¬ r.lookAhead.seemsEmpty) :
    r.lookAhead.Occupied (r.lookAhead.slotOf r.lookAhead.readIndex) := by
  have hahead := h.lookAhead
  have hlength : 0 < q.length := by
    rw [h.seemsEmpty_lookAhead] at hsees
    exact List.length_pos_iff.2 hsees
  have hslot : r.lookAhead.readIndex = r.lookAhead.readIndex + .ofNat 0 := (UInt64.add_zero _).symm
  rw [hslot]
  exact ⟨q[0], hahead.item_eq hlength⟩

theorem push_keeps (h : r.Holds q) (item kept : α) (slot : Nat)
    (hkept : r.slots[slot]? = some (some kept)) :
    (r.push item).2.slots[slot]? = some (some kept) := by
  have hsame : r.lookBehind.slots = r.slots := by
    unfold Ring.lookBehind
    split <;> rfl
  rw [push_eq]
  split
  · rwa [hsame]
  · rename_i hroom
    have hvacant := h.vacant_of_room hroom
    have hne : r.lookBehind.slotOf r.lookBehind.writeIndex ≠ slot := by
      rintro rfl
      rw [hsame, hkept] at hvacant
      cases hvacant
    rw [Ring.putNext, Array.getElem?_setIfInBounds, if_neg hne, hsame, hkept]

theorem safeNext (h : r.Holds q) : r.SafeNext where
  vacant_of_room := h.vacant_of_room
  occupied_of_item := h.occupied_of_item
  push_keeps := h.push_keeps

/-- So it stays however many items are read. -/
theorem iterate_pop (h : r.Holds q) (k : Nat) : ((·.pop.2)^[k] r).Holds (q.drop k) := by
  induction k with
  | zero => exact h
  | succ k ih =>
    rw [Function.iterate_succ_apply', ← List.tail_drop]
    exact ih.pop.2

end Holds

end DepthFeed.Ring

import Mathlib.Data.List.Induction
import Mathlib.Data.Nat.ModEq
import DepthFeed.Ring.Basic

/-!
# The items in a ring

`Ring.Holds r q` says that the ring `r` holds the items of `q`, oldest first. It relates both
indices, both copies of them and all slots to `q`, and is kept by every operation.

* `holds_ofCapacity`, `exists_holds`: a new ring holds nothing, and some ring holds any items that
  find room in it.
* `Holds.push`: an item joins exactly if fewer items than slots are held, whatever the writers
  last saw of the read index.
* `Holds.pop`: the oldest item leaves, whatever the reader last saw of the write index.
* `Holds.readMany`, `Holds.drain`: several items leave, in order.
* `Holds.size_eq_length`: the number of items to read is that of the items held.
-/

namespace DepthFeed.Ring

variable {α : Type} {r : Ring α} {q : List α}

/-! ## Slots -/

theorem slotOf_eq_mod {k : Nat} (hk : k < 64) (hcapacity : r.capacity = 2 ^ k) (index : UInt64) :
    r.slotOf index = index.toNat % r.capacity := by
  have hlt : 2 ^ k < 2 ^ 64 := Nat.pow_lt_pow_right (by omega) hk
  have hone : 1 ≤ 2 ^ k := Nat.one_le_two_pow
  have hle : (1 : UInt64) ≤ UInt64.ofNat (2 ^ k) := by
    rw [UInt64.le_iff_toNat_le, UInt64.toNat_ofNat', Nat.mod_eq_of_lt hlt]
    exact hone
  rw [slotOf, hcapacity, UInt64.toNat_and, UInt64.toNat_sub_of_le _ _ hle, UInt64.toNat_ofNat',
    Nat.mod_eq_of_lt hlt]
  exact Nat.and_two_pow_sub_one_eq_mod index.toNat k

/-- The slots from the one of an index on follow each other, also where the index wraps. -/
theorem slotOf_add {k : Nat} (hk : k < 64) (hcapacity : r.capacity = 2 ^ k) (index : UInt64)
    (i : Nat) : r.slotOf (index + UInt64.ofNat i) = (index.toNat + i) % r.capacity := by
  have hdvd : r.capacity ∣ 2 ^ 64 := hcapacity ▸ Nat.pow_dvd_pow 2 hk.le
  rw [slotOf_eq_mod hk hcapacity, UInt64.toNat_add, UInt64.toNat_ofNat', Nat.add_mod_mod,
    Nat.mod_mod_of_dvd _ hdvd]

theorem slotOf_congr {r' : Ring α} (h : r'.capacity = r.capacity) (index : UInt64) :
    r'.slotOf index = r.slotOf index := by
  rw [slotOf, h, slotOf]

/-- Two indices less than a round apart have different slots. -/
theorem add_mod_injective {c a i j : Nat} (hi : i < c) (hj : j < c)
    (h : (a + i) % c = (a + j) % c) : i = j := by
  have hmod : i ≡ j [MOD c] := Nat.ModEq.add_left_cancel' a h
  exact Nat.ModEq.eq_of_lt_of_lt hmod hi hj

/-- Word differences that stay below a round add up. -/
theorem toNat_sub_add {a b c : UInt64} (h : (a - b).toNat + (b - c).toNat < 2 ^ 64) :
    (a - c).toNat = (a - b).toNat + (b - c).toNat := by
  have ha := a.toNat_lt
  have hb := b.toNat_lt
  have hc := c.toNat_lt
  rw [UInt64.toNat_sub, UInt64.toNat_sub] at h
  rw [UInt64.toNat_sub, UInt64.toNat_sub, UInt64.toNat_sub]
  omega

theorem toNat_sub_eq_zero_iff {a b : UInt64} : (a - b).toNat = 0 ↔ a = b := by
  have ha := a.toNat_lt
  have hb := b.toNat_lt
  rw [← UInt64.toNat_inj, UInt64.toNat_sub]
  omega

theorem toNat_sub_add_one {a b : UInt64} (h : (a - b).toNat ≠ 0) :
    (a - (b + 1)).toNat = (a - b).toNat - 1 := by
  have ha := a.toNat_lt
  have hb := b.toNat_lt
  rw [UInt64.toNat_sub] at h
  rw [UInt64.toNat_sub, UInt64.toNat_sub, UInt64.toNat_add, UInt64.toNat_one]
  omega

theorem toNat_add_one_sub_le (a b : UInt64) : (a + 1 - b).toNat ≤ (a - b).toNat + 1 := by
  have ha := a.toNat_lt
  have hb := b.toNat_lt
  rw [UInt64.toNat_sub, UInt64.toNat_sub, UInt64.toNat_add, UInt64.toNat_one]
  omega

/-! ## The relation -/

/-- The slots hold the items of `q` between the two indices, oldest first. -/
structure Stores (r : Ring α) (q : List α) : Prop where
  capacity_eq : ∃ k < 64, r.capacity = 2 ^ k
  length_le : q.length ≤ r.capacity
  /-- The indices are as far apart as there are items. -/
  distance_eq : (r.writeIndex - r.readIndex).toNat = q.length
  /-- Once around from the read index, the slots hold the items and then nothing. -/
  slot_eq : ∀ i < r.capacity, r.slots[r.slotOf (r.readIndex + UInt64.ofNat i)]? = some q[i]?

/-- The ring holds the items of `q`, and neither side is misled by its copy of the other's index. -/
structure Holds (r : Ring α) (q : List α) : Prop extends Stores r q where
  /-- From the read index that the writers know, no more was written than there are slots. -/
  knownRead_le : (r.readIndex - r.knownRead).toNat + q.length ≤ r.capacity
  /-- The write index that the reader knows lies between the two indices. -/
  knownWrite_le : (r.knownWrite - r.readIndex).toNat ≤ q.length

namespace Stores

theorem capacity_pos (h : r.Stores q) : 0 < r.capacity := by
  obtain ⟨k, -, hcapacity⟩ := h.capacity_eq
  rw [hcapacity]
  exact Nat.two_pow_pos k

theorem capacity_lt (h : r.Stores q) : r.capacity < 2 ^ 64 := by
  obtain ⟨k, hk, hcapacity⟩ := h.capacity_eq
  rw [hcapacity]
  exact Nat.pow_lt_pow_right (by omega) hk

/-- The write index comes after the items from the read index on. -/
theorem writeIndex_eq (h : r.Stores q) : r.writeIndex = r.readIndex + UInt64.ofNat q.length := by
  rw [← h.distance_eq, UInt64.ofNat_toNat, UInt64.add_comm, UInt64.sub_add_cancel]

/-- Less than a round from the read index on, each index has a slot of its own. -/
theorem slotOf_ne (h : r.Stores q) {i j : Nat} (hi : i < r.capacity) (hj : j < r.capacity)
    (hne : i ≠ j) :
    r.slotOf (r.readIndex + UInt64.ofNat i) ≠ r.slotOf (r.readIndex + UInt64.ofNat j) := by
  obtain ⟨k, hk, hcapacity⟩ := h.capacity_eq
  rw [slotOf_add hk hcapacity, slotOf_add hk hcapacity]
  exact fun heq => hne (add_mod_injective hi hj heq)

theorem slotOf_lt (h : r.Stores q) (index : UInt64) : r.slotOf index < r.slots.size := by
  obtain ⟨k, hk, hcapacity⟩ := h.capacity_eq
  rw [slotOf_eq_mod hk hcapacity]
  exact Nat.mod_lt _ h.capacity_pos

theorem slotOf_add_capacity (h : r.Stores q) (index : UInt64) :
    r.slotOf (index + UInt64.ofNat r.capacity) = r.slotOf index := by
  obtain ⟨k, hk, hcapacity⟩ := h.capacity_eq
  rw [slotOf_add hk hcapacity, slotOf_eq_mod hk hcapacity, Nat.add_mod_right]

end Stores

theorem holds_ofCapacity {capacity : UInt64} (hcapacity : capacity.toNat.isPowerOfTwo) :
    ∃ r : Ring α, ofCapacity capacity.toNat = .ok r ∧ r.Holds [] ∧ r.capacity = capacity.toNat := by
  obtain ⟨k, hk⟩ := hcapacity
  have hlt : k < 64 := by
    by_contra hge
    have hle : 2 ^ 64 ≤ 2 ^ k := Nat.pow_le_pow_right (by omega) (by omega)
    have hbound := capacity.toNat_lt
    omega
  refine ⟨_, if_pos ⟨k, hk⟩, ?_, by simp [Ring.capacity]⟩
  have hsize : ∀ r w kr kw, (Ring.mk (Array.replicate capacity.toNat (none : Option α))
      r w kr kw).capacity = 2 ^ k := by
    simp [Ring.capacity, hk]
  refine { capacity_eq := ⟨k, hlt, hsize _ _ _ _⟩, length_le := by simp, distance_eq := by simp,
           slot_eq := ?_, knownRead_le := by simp, knownWrite_le := by simp }
  intro i _
  rw [slotOf_add hlt (hsize _ _ _ _), hsize, hk]
  simp [Nat.mod_lt _ (Nat.two_pow_pos k)]

/-! ## Writing -/

/-- The ring with an item in the slot of the write index, which moves on. -/
def putNext (r : Ring α) (item : α) : Ring α :=
  { r with
    slots := r.slots.setIfInBounds (r.slotOf r.writeIndex) (some item)
    writeIndex := r.writeIndex + 1 }

theorem push_eq (r : Ring α) (item : α) :
    r.push item =
      if r.lookBehind.seemsFull then (some item, r.lookBehind)
      else (none, r.lookBehind.putNext item) := rfl

@[simp]
theorem capacity_putNext (r : Ring α) (item : α) : (r.putNext item).capacity = r.capacity := by
  simp [putNext, capacity]

namespace Holds

/-- What the writers see: the items, and those read since they last looked. -/
theorem distance_knownRead (h : r.Holds q) :
    (r.writeIndex - r.knownRead).toNat = q.length + (r.readIndex - r.knownRead).toNat := by
  have hle := h.knownRead_le
  have hlt := h.capacity_lt
  rw [toNat_sub_add (b := r.readIndex), h.distance_eq]
  rw [h.distance_eq]
  omega

theorem lookBehind (h : r.Holds q) : r.lookBehind.Holds q := by
  unfold Ring.lookBehind
  split
  · exact { h with knownRead_le := by simpa [Ring.capacity] using h.length_le }
  · exact h

/-- Once they have looked, the writers see no free slot exactly if there is none. -/
theorem seemsFull_lookBehind (h : r.Holds q) :
    r.lookBehind.seemsFull = true ↔ r.capacity ≤ q.length := by
  have hdistance := h.distance_knownRead
  unfold Ring.lookBehind
  split
  · simp [seemsFull, h.distance_eq, Ring.capacity]
  · rename_i hroom
    simp only [seemsFull, decide_eq_true_eq] at hroom ⊢
    omega

/-- An item put down by writers that see a free slot joins the items. -/
theorem putNext (h : r.Holds q) (hroom : ¬ r.seemsFull) (item : α) :
    (r.putNext item).Holds (q ++ [item]) := by
  have hdistance := h.distance_knownRead
  simp only [seemsFull, decide_eq_true_eq] at hroom
  have hlength : q.length < r.capacity := by omega
  have hwrap := h.capacity_lt
  have hone : (r.writeIndex + 1 - r.writeIndex).toNat = 1 := by
    rw [UInt64.add_comm, UInt64.add_sub_cancel, UInt64.toNat_one]
  have hread := h.distance_eq
  have hknown := h.knownWrite_le
  refine
    { capacity_eq := ?_, length_le := ?_, distance_eq := ?_, slot_eq := ?_, knownRead_le := ?_
      knownWrite_le := ?_ }
  · rw [capacity_putNext]
    exact h.capacity_eq
  · simp only [capacity_putNext, List.length_append, List.length_singleton]
    omega
  · show (r.writeIndex + 1 - r.readIndex).toNat = _
    rw [toNat_sub_add (b := r.writeIndex) (by omega), hone, hread, List.length_append,
      List.length_singleton, Nat.add_comm]
  · intro i hi
    rw [capacity_putNext] at hi
    rw [slotOf_congr (capacity_putNext r item)]
    show (r.slots.setIfInBounds _ _)[r.slotOf (r.readIndex + _)]? = _
    rw [h.writeIndex_eq, Array.getElem?_setIfInBounds]
    by_cases hlast : i = q.length
    · subst hlast
      simp [h.slotOf_lt]
    · rw [if_neg (h.slotOf_ne hlength hi (Ne.symm hlast)), h.slot_eq i hi]
      rcases Nat.lt_or_gt_of_ne hlast with hlt | hgt
      · rw [List.getElem?_append_left hlt]
      · rw [List.getElem?_eq_none (by omega), List.getElem?_eq_none (by simp; omega)]
  · show (r.readIndex - r.knownRead).toNat + _ ≤ _
    rw [capacity_putNext, List.length_append, List.length_singleton]
    omega
  · show (r.knownWrite - r.readIndex).toNat ≤ _
    rw [List.length_append]
    omega

/-- An offered item joins the items if there are fewer of them than slots, and is handed back
otherwise. -/
theorem push (h : r.Holds q) (item : α) :
    (r.push item).1 = (if q.length < r.capacity then none else some item) ∧
      (r.push item).2.Holds (if q.length < r.capacity then q ++ [item] else q) := by
  have hfull := h.seemsFull_lookBehind
  rw [push_eq]
  by_cases hroom : q.length < r.capacity
  · have hsees : ¬ r.lookBehind.seemsFull := by
      rw [hfull]
      omega
    simp only [hroom, if_true, if_neg hsees]
    exact ⟨trivial, h.lookBehind.putNext hsees item⟩
  · simp only [hroom, if_false, if_pos (hfull.mpr (Nat.le_of_not_lt hroom))]
    exact ⟨trivial, h.lookBehind⟩

end Holds

/-! ## Reading -/

theorem pop_eq (r : Ring α) :
    r.pop =
      if r.lookAhead.seemsEmpty then (none, r.lookAhead)
      else (r.lookAhead.oldest?, r.lookAhead.dropOldest) := rfl

@[simp]
theorem capacity_dropOldest (r : Ring α) : r.dropOldest.capacity = r.capacity := by
  simp [dropOldest, capacity]

theorem Stores.oldest? {item : α} (h : r.Stores (item :: q)) : r.oldest? = some item := by
  have hslot : r.slots[r.slotOf r.readIndex]? = some (some item) := by
    simpa using h.slot_eq 0 h.capacity_pos
  rw [Ring.oldest?, hslot]
  rfl

theorem Stores.dropOldest {item : α} (h : r.Stores (item :: q)) : r.dropOldest.Stores q := by
  have hlength := h.length_le
  have hdistance := h.distance_eq
  rw [List.length_cons] at hlength hdistance
  refine { capacity_eq := ?_, length_le := ?_, distance_eq := ?_, slot_eq := ?_ }
  · rw [capacity_dropOldest]
    exact h.capacity_eq
  · rw [capacity_dropOldest]
    omega
  · show (r.writeIndex - (r.readIndex + 1)).toNat = q.length
    rw [toNat_sub_add_one (by omega), hdistance, Nat.add_sub_cancel]
  · intro i hi
    rw [capacity_dropOldest] at hi
    rw [slotOf_congr (capacity_dropOldest r)]
    show (r.slots.setIfInBounds _ none)[r.slotOf (r.readIndex + 1 + _)]? = _
    have hnext : r.readIndex + 1 + UInt64.ofNat i = r.readIndex + UInt64.ofNat (i + 1) := by
      rw [UInt64.ofNat_add, UInt64.add_assoc, UInt64.add_comm 1]
      rfl
    have hfirst : r.slotOf r.readIndex = r.slotOf (r.readIndex + UInt64.ofNat 0) := by simp
    rw [hnext, Array.getElem?_setIfInBounds]
    by_cases hround : i + 1 = r.capacity
    · rw [hround, h.slotOf_add_capacity, if_pos rfl, if_pos (h.slotOf_lt _),
        List.getElem?_eq_none (by omega)]
    · rw [hfirst, if_neg (h.slotOf_ne h.capacity_pos (by omega) (by omega)),
        h.slot_eq (i + 1) (by omega), List.getElem?_cons_succ]

namespace Holds

theorem lookAhead (h : r.Holds q) : r.lookAhead.Holds q := by
  unfold Ring.lookAhead
  split
  · exact { h with knownWrite_le := by simpa using h.distance_eq.le }
  · exact h

/-- Once it has looked, the reader sees no item exactly if there is none. -/
theorem seemsEmpty_lookAhead (h : r.Holds q) : r.lookAhead.seemsEmpty = true ↔ q = [] := by
  have hdistance := h.distance_eq
  have hknown := h.knownWrite_le
  rw [← List.length_eq_zero_iff]
  unfold Ring.lookAhead
  split
  · simp only [seemsEmpty, decide_eq_true_eq]
    rw [← hdistance, toNat_sub_eq_zero_iff, eq_comm]
  · rename_i hsees
    have hne : (r.knownWrite - r.readIndex).toNat ≠ 0 := by
      rw [Ne, toNat_sub_eq_zero_iff, eq_comm]
      simpa [seemsEmpty] using hsees
    exact iff_of_false hsees (by omega)

theorem dropOldest {item : α} (h : r.Holds (item :: q)) (hsees : ¬ r.seemsEmpty) :
    r.dropOldest.Holds q := by
  have hne : (r.knownWrite - r.readIndex).toNat ≠ 0 := by
    rw [Ne, toNat_sub_eq_zero_iff, eq_comm]
    simpa [seemsEmpty] using hsees
  have hbehind := h.knownRead_le
  have hahead := h.knownWrite_le
  rw [List.length_cons] at hbehind hahead
  refine { h.toStores.dropOldest with knownRead_le := ?_, knownWrite_le := ?_ }
  · rw [capacity_dropOldest]
    show (r.readIndex + 1 - r.knownRead).toNat + q.length ≤ r.capacity
    have hstep := toNat_add_one_sub_le r.readIndex r.knownRead
    omega
  · show (r.knownWrite - (r.readIndex + 1)).toNat ≤ q.length
    rw [toNat_sub_add_one hne]
    omega

theorem pop_nil (h : r.Holds []) : ∃ r', r.pop = (none, r') ∧ r'.Holds [] := by
  have hsees : r.lookAhead.seemsEmpty = true := h.seemsEmpty_lookAhead.mpr rfl
  exact ⟨r.lookAhead, by rw [pop_eq, if_pos hsees], h.lookAhead⟩

/-- A read that was refused once changes nothing when it is refused again. -/
theorem pop_pop_nil (h : r.Holds []) : r.pop.2.pop = (none, r.pop.2) := by
  have hsees : r.lookAhead.seemsEmpty = true := h.seemsEmpty_lookAhead.mpr rfl
  have hagain : r.lookAhead.lookAhead = r.lookAhead := by
    by_cases hempty : r.seemsEmpty
    · have hlook : r.lookAhead = { r with knownWrite := r.writeIndex } := if_pos hempty
      rw [hlook, Ring.lookAhead]
      exact ite_self _
    · have hlook : r.lookAhead = r := if_neg hempty
      rw [hlook, hlook]
  have hpop : r.pop = (none, r.lookAhead) := by rw [pop_eq, if_pos hsees]
  rw [hpop, pop_eq, hagain, if_pos hsees]

theorem pop_cons {item : α} (h : r.Holds (item :: q)) :
    ∃ r', r.pop = (some item, r') ∧ r'.Holds q := by
  have hsees : ¬ r.lookAhead.seemsEmpty := by
    rw [h.seemsEmpty_lookAhead]
    exact List.cons_ne_nil item q
  refine ⟨r.lookAhead.dropOldest, ?_, h.lookAhead.dropOldest hsees⟩
  rw [pop_eq, if_neg hsees, h.lookAhead.oldest?]

theorem pop (h : r.Holds q) : r.pop.1 = q.head? ∧ r.pop.2.Holds q.tail := by
  cases q with
  | nil =>
    obtain ⟨r', hpop, hr'⟩ := h.pop_nil
    rw [hpop]
    exact ⟨rfl, hr'⟩
  | cons item q =>
    obtain ⟨r', hpop, hr'⟩ := h.pop_cons
    rw [hpop]
    exact ⟨rfl, hr'⟩

/-- `n` reads give the oldest `n` items, or all if there are fewer. -/
theorem readMany (h : r.Holds q) (n : Nat) :
    (r.readMany n).1 = q.take n ∧ (r.readMany n).2.Holds (q.drop n) := by
  induction n generalizing r q with
  | zero => exact ⟨rfl, h⟩
  | succ n ih =>
    cases q with
    | nil =>
      obtain ⟨r', hpop, hr'⟩ := h.pop_nil
      rw [readMany_succ, hpop]
      exact ⟨rfl, hr'⟩
    | cons item q =>
      obtain ⟨r', hpop, hr'⟩ := h.pop_cons
      obtain ⟨hitems, hlast⟩ := ih hr'
      rw [readMany_succ, hpop]
      exact ⟨congrArg (item :: ·) hitems, hlast⟩

theorem drain (h : r.Holds q) : r.drain.1 = q ∧ r.drain.2.Holds [] := by
  induction q generalizing r with
  | nil =>
    obtain ⟨r', hpop, hr'⟩ := h.pop_nil
    rw [drain_eq, hpop]
    exact ⟨rfl, hr'⟩
  | cons item q ih =>
    obtain ⟨r', hpop, hr'⟩ := h.pop_cons
    obtain ⟨hitems, hlast⟩ := ih hr'
    rw [drain_eq, hpop]
    exact ⟨congrArg (item :: ·) hitems, hlast⟩

/-! ## Size -/

theorem size_eq_length (h : r.Holds q) : r.size = q.length := by
  rw [size, h.distance_eq]
  exact Nat.min_eq_left h.length_le

theorem isEmpty_eq (h : r.Holds q) : r.isEmpty = decide (q.length = 0) := by
  rw [isEmpty, h.size_eq_length]

theorem isFull_eq (h : r.Holds q) : r.isFull = decide (r.capacity ≤ q.length) := by
  rw [isFull, h.size_eq_length]

end Holds

/-! ## Capacity -/

theorem capacity_lookBehind (r : Ring α) : r.lookBehind.capacity = r.capacity := by
  unfold lookBehind
  split <;> rfl

theorem capacity_lookAhead (r : Ring α) : r.lookAhead.capacity = r.capacity := by
  unfold lookAhead
  split <;> rfl

theorem capacity_push (r : Ring α) (item : α) : (r.push item).2.capacity = r.capacity := by
  rw [push_eq]
  split
  · exact capacity_lookBehind r
  · rw [capacity_putNext, capacity_lookBehind]

theorem capacity_pop (r : Ring α) : r.pop.2.capacity = r.capacity := by
  rw [pop_eq]
  split
  · exact capacity_lookAhead r
  · rw [capacity_dropOldest, capacity_lookAhead]

theorem capacity_readMany (r : Ring α) (n : Nat) : (r.readMany n).2.capacity = r.capacity := by
  induction n generalizing r with
  | zero => rfl
  | succ n ih =>
    have hpop := capacity_pop r
    rw [readMany_succ]
    split
    · rename_i heq
      rwa [heq] at hpop
    · rename_i heq
      rw [heq] at hpop
      exact (ih _).trans hpop

theorem capacity_drainOnto (r : Ring α) (before : List α) :
    (r.drainOnto before).2.capacity = r.capacity := by
  fun_induction drainOnto r before with
  | case1 r before r' hpop => rw [← capacity_pop r, hpop]
  | case2 r before item r' hpop ih => rw [ih, ← capacity_pop r, hpop]

theorem capacity_drain (r : Ring α) : r.drain.2.capacity = r.capacity := capacity_drainOnto r []

theorem capacity_releaseOnto (r : Ring α) (before : List α) :
    (r.releaseOnto before).2.capacity = r.capacity := by
  fun_induction releaseOnto r before with
  | case1 r before h => rfl
  | case2 r before h oldest ih => rw [ih, capacity_dropOldest]

theorem capacity_release (r : Ring α) : r.release.2.capacity = r.capacity :=
  capacity_releaseOnto r []

/-- Items that find room in a new ring are what some ring holds. -/
theorem exists_holds {capacity : UInt64} (hcapacity : capacity.toNat.isPowerOfTwo)
    {items : List α} (hroom : items.length ≤ capacity.toNat) :
    ∃ r : Ring α, r.capacity = capacity.toNat ∧ r.Holds items := by
  induction items using List.reverseRecOn with
  | nil =>
    obtain ⟨r, -, hholds, hsize⟩ := holds_ofCapacity (α := α) hcapacity
    exact ⟨r, hsize, hholds⟩
  | append_singleton items item ih =>
    rw [List.length_append, List.length_singleton] at hroom
    obtain ⟨r, hsize, hholds⟩ := ih (by omega)
    have hnext := (hholds.push item).2
    rw [hsize, if_pos (by omega)] at hnext
    exact ⟨(r.push item).2, (capacity_push r item).trans hsize, hnext⟩

end DepthFeed.Ring

import Mathlib.Algebra.BigOperators.Group.List.Basic
import Mathlib.Algebra.Ring.Nat
import Mathlib.Data.List.Perm.Basic
import Mathlib.Data.Nat.ModEq

/-!
# Words that count together

Several counters are words, each of which wraps around on its own. What they counted together is the
sum of the words up to a multiple of `2 ^ 64`, and the sum itself if none of them wrapped.

* `sumOfWords`: the sum of some words as a number.
* `AddUp`: words that add up to a total, exactly so as long as few enough things were counted.
* `IsLedger`: words that stand for counts with a total and a bound.
* `IsLedger.countAlong`: each of some counters counts one more, or not.
* `IsLedger.addUp`: the words of a ledger add up to its total.
-/

namespace DepthFeed

def sumOfWords (words : List UInt64) : Nat := (words.map UInt64.toNat).sum

/-- Words add up to `total`: modulo `2 ^ 64`, and exactly if `counted` is less than that. -/
def AddUp (words : List UInt64) (total counted : Nat) : Prop :=
  sumOfWords words ≡ total [MOD 2 ^ 64] ∧ (counted < 2 ^ 64 → sumOfWords words = total)

/-- A total may itself be kept in a word that wraps around. -/
theorem AddUp.word {words : List UInt64} {total : Nat} (h : AddUp words total total) :
    AddUp words (UInt64.ofNat total).toNat total := by
  obtain ⟨hmod, hexact⟩ := h
  constructor
  · exact hmod.trans (Nat.mod_modEq total (2 ^ 64)).symm
  · intro hword
    rw [hexact hword]
    exact (UInt64.toNat_ofNat_of_lt' hword).symm

/-- Words that stand for counts which make up `total`, none of them above `bound`. -/
def IsLedger (words : List UInt64) (total bound : Nat) : Prop :=
  ∃ counts : List Nat, counts.map UInt64.ofNat = words ∧ counts.sum = total ∧
    ∀ count ∈ counts, count ≤ bound

namespace IsLedger

variable {words words' : List UInt64} {total bound : Nat}

theorem nil : IsLedger [] 0 bound := ⟨[], rfl, rfl, fun _ h => nomatch h⟩

/-- The order of the counters does not matter. -/
theorem perm (h : IsLedger words total bound) (hperm : words'.Perm words) :
    IsLedger words' total bound := by
  obtain ⟨counts, rfl, rfl, hbound⟩ := h
  obtain ⟨counts', rfl, hcounts⟩ :
      Relation.Comp (· = List.map UInt64.ofNat ·) List.Perm words' counts := by
    rw [List.eq_map_comp_perm]
    exact hperm
  refine ⟨counts', rfl, hcounts.sum_eq, ?_⟩
  intro count hcount
  exact hbound count (hcounts.mem_iff.1 hcount)

theorem mono {bound' : Nat} (h : IsLedger words total bound) (hle : bound ≤ bound') :
    IsLedger words total bound' := by
  obtain ⟨counts, hwords, htotal, hbound⟩ := h
  refine ⟨counts, hwords, htotal, ?_⟩
  intro count hcount
  exact Nat.le_trans (hbound count hcount) hle

theorem append_iff :
    IsLedger (words ++ words') total bound ↔
      ∃ first second, total = first + second ∧ IsLedger words first bound ∧
        IsLedger words' second bound := by
  constructor
  · rintro ⟨counts, hwords, rfl, hbound⟩
    obtain ⟨earlier, later, rfl, hearlier, hlater⟩ := List.map_eq_append_iff.1 hwords
    refine ⟨earlier.sum, later.sum, List.sum_append, ⟨earlier, hearlier, rfl, ?_⟩,
      ⟨later, hlater, rfl, ?_⟩⟩
    · intro count hcount
      exact hbound count (List.mem_append_left _ hcount)
    · intro count hcount
      exact hbound count (List.mem_append_right _ hcount)
  · rintro ⟨_, _, rfl, ⟨earlier, rfl, rfl, hearlier⟩, later, rfl, rfl, hlater⟩
    refine ⟨earlier ++ later, List.map_append, List.sum_append, ?_⟩
    intro count hcount
    rcases List.mem_append.1 hcount with hmem | hmem
    · exact hearlier count hmem
    · exact hlater count hmem

/-- A counter that starts at zero changes no total. -/
theorem append_zero (h : IsLedger words total bound) : IsLedger (words ++ [0]) total bound := by
  refine append_iff.2 ⟨total, 0, rfl, h, [0], rfl, rfl, ?_⟩
  intro count hcount
  rw [List.mem_singleton.1 hcount]
  exact Nat.zero_le bound

/-- Where each of some counters counts one more or not, the total grows by how many do. -/
theorem countAlong {α : Type} {items : List α} {before after : α → UInt64} {counts : α → Bool}
    (hafter : ∀ item, after item = before item + if counts item then 1 else 0)
    (h : IsLedger (items.map before) total bound) :
    IsLedger (items.map after) (total + items.countP counts) (bound + 1) := by
  obtain ⟨numbers, hwords, rfl, hbound⟩ := h
  induction items generalizing numbers with
  | nil =>
    rw [List.map_eq_nil_iff.1 hwords]
    exact nil
  | cons item items ih =>
    obtain ⟨number, later, rfl, hnumber, hlater⟩ := List.map_eq_cons_iff.1 hwords
    have hrest := ih later hlater fun count hcount => hbound count (List.mem_cons_of_mem _ hcount)
    have hfirst : IsLedger [after item] (number + if counts item then 1 else 0) (bound + 1) := by
      have hle := hbound number List.mem_cons_self
      refine ⟨[number + if counts item then 1 else 0], ?_, List.sum_singleton, ?_⟩
      · rw [hafter, ← hnumber]
        split <;> simp [UInt64.ofNat_add]
      · intro count hcount
        rw [List.mem_singleton.1 hcount]
        split <;> omega
    have hboth := append_iff.2 ⟨_, _, rfl, hfirst, hrest⟩
    have htotal : (number + if counts item then 1 else 0) + (later.sum + items.countP counts) =
        (number :: later).sum + (item :: items).countP counts := by
      rw [List.sum_cons, List.countP_cons]
      omega
    rwa [htotal] at hboth

theorem addUp (h : IsLedger words total bound) : AddUp words total bound := by
  obtain ⟨counts, rfl, rfl, hbound⟩ := h
  unfold AddUp sumOfWords
  rw [List.map_map]
  constructor
  · clear hbound
    induction counts with
    | nil => rfl
    | cons count counts ih =>
      rw [List.map_cons, List.sum_cons, List.sum_cons]
      exact Nat.ModEq.add (Nat.mod_modEq count (2 ^ 64)) ih
  · intro hword
    have hself : counts.map (UInt64.toNat ∘ UInt64.ofNat) = counts := by
      refine (List.map_congr_left fun count hcount => ?_).trans (List.map_id counts)
      exact UInt64.toNat_ofNat_of_lt' (Nat.lt_of_le_of_lt (hbound count hcount) hword)
    rw [hself]

end IsLedger

end DepthFeed

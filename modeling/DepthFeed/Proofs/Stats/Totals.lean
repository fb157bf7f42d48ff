import Mathlib.Data.List.Nodup
import DepthFeed.Proofs.Sequence.Observation
import DepthFeed.Proofs.Stats.Ledger
import DepthFeed.Proofs.Stats.Sharing

/-!
# The total of all streams

The total adds the counters of one stream after the other, and of each stream one count after the
other. In trapping mode it stops at the first sum that is no word. The order of the streams decides
which sum that is, but not whether there is one, since sums of counts never get smaller.

* `Counters.Count`, `Counters.exactSum`: the counts that are added, and their sums as numbers.
* `Counters.IsTotal`: the outcome for exact sums, which `Counters.add` and the total of any number of
  counters have.
* `StatsStore.Lists`: the streams of a table, each once, in any order.
* `StatsStore.TotalLaws`, `StatsStore.total_in_any_order`: what is promised of the total.
-/

namespace DepthFeed

namespace Counters

/-! ## Counts -/

/-- The counts that are added. The largest latency is none of them. -/
inductive Count where
  | messages
  | gaps
  | missing
  | latencySum
  | samples
  | reconnects
deriving DecidableEq, Repr

def count (c : Counters) : Count → UInt64
  | .messages => c.messages
  | .gaps => c.gaps
  | .missing => c.missing
  | .latencySum => c.latencySum
  | .samples => c.samples
  | .reconnects => c.reconnects

/-- The counters whose words show some numbers. -/
def ofCounts (number : Count → Nat) (worstLatency : UInt64) : Counters where
  messages := .ofNat (number .messages)
  gaps := .ofNat (number .gaps)
  missing := .ofNat (number .missing)
  latencySum := .ofNat (number .latencySum)
  samples := .ofNat (number .samples)
  worstLatency := worstLatency
  reconnects := .ofNat (number .reconnects)

theorem toNat_count_ofCounts (number : Count → Nat) (worstLatency : UInt64) (k : Count) :
    ((ofCounts number worstLatency).count k).toNat = number k % 2 ^ 64 := by
  cases k <;> exact UInt64.toNat_ofNat'

theorem ofCounts_count (c : Counters) :
    ofCounts (fun k => (c.count k).toNat) c.worstLatency = c := by
  simp only [ofCounts, count, UInt64.ofNat_toNat]

/-- Words show numbers up to multiples of `2 ^ 64`. -/
theorem ofCounts_congr {number number' : Count → Nat} (worstLatency : UInt64)
    (h : ∀ k, number k ≡ number' k [MOD 2 ^ 64]) :
    ofCounts number worstLatency = ofCounts number' worstLatency := by
  have hword : ∀ k, UInt64.ofNat (number k) = .ofNat (number' k) := by
    intro k
    rw [← UInt64.toNat_inj, UInt64.toNat_ofNat', UInt64.toNat_ofNat']
    exact h k
  simp only [ofCounts, hword]

/-! ## Totals -/

/-- Whether a mode has words for some numbers. -/
def Fit (mode : OverflowMode) (number : Count → Nat) : Prop :=
  mode = .trapping → ∀ k, number k < 2 ^ 64

/-- The outcome of adding counters up to some numbers: the words that show them, or a fault. -/
structure IsTotal (mode : OverflowMode) (number : Count → Nat) (worstLatency : UInt64)
    (outcome : Except Fault Counters) : Prop where
  fits : Fit mode number → outcome = .ok (ofCounts number worstLatency)
  faults : ¬ Fit mode number → outcome = .error (.overflow .add)

variable {mode : OverflowMode}

/-- There is one outcome for the same numbers. -/
theorem IsTotal.outcome_eq {number : Count → Nat} {worstLatency : UInt64}
    {outcome other : Except Fault Counters} (h : IsTotal mode number worstLatency outcome)
    (hother : IsTotal mode number worstLatency other) : outcome = other := by
  by_cases hfit : Fit mode number
  · rw [h.fits hfit, hother.fits hfit]
  · rw [h.faults hfit, hother.faults hfit]

/-- A count of two counters together, as a number. -/
def together (a b : Counters) (k : Count) : Nat := (a.count k).toNat + (b.count k).toNat

theorem add_isTotal (mode : OverflowMode) (a b : Counters) :
    IsTotal mode (together a b) (max a.worstLatency b.worstLatency) (add mode a b) := by
  have hadd : add mode a b = (do
      return {
        messages := ← mode.unsigned .add (together a b .messages)
        gaps := ← mode.unsigned .add (together a b .gaps)
        missing := ← mode.unsigned .add (together a b .missing)
        latencySum := ← mode.unsigned .add (together a b .latencySum)
        samples := ← mode.unsigned .add (together a b .samples)
        worstLatency := max a.worstLatency b.worstLatency
        reconnects := ← mode.unsigned .add (together a b .reconnects) }) := rfl
  constructor
  · intro hfit
    have hsum : ∀ k, mode.unsigned .add (together a b k) = .ok (.ofNat (together a b k)) :=
      fun k => OverflowMode.unsigned_of_fits (fun hmode => hfit hmode k) .add
    rw [hadd]
    simp only [hsum]
    rfl
  · intro hnot
    obtain ⟨hmode, hover⟩ := Classical.not_imp.1 hnot
    obtain ⟨k, hk⟩ := not_forall.1 hover
    subst hmode
    rw [hadd]
    simp only [OverflowMode.unsigned, bind, Except.bind]
    -- whichever sum is the first that is no word, the fault is the same
    split_ifs
    case pos => exact absurd (by cases k <;> assumption) hk
    all_goals rfl

/-- Adding on from a total makes the total of both. -/
theorem IsTotal.bind {number more : Count → Nat} {worst worst' : UInt64}
    {outcome : Except Fault Counters} {addOn : Counters → Except Fault Counters}
    (h : IsTotal mode number worst outcome)
    (hmore : IsTotal mode (fun k => ((ofCounts number worst).count k).toNat + more k) worst'
      (addOn (ofCounts number worst))) :
    IsTotal mode (fun k => number k + more k) worst' (outcome >>= addOn) := by
  simp only [toNat_count_ofCounts] at hmore
  by_cases hfirst : Fit mode number
  · have hsame : Fit mode (fun k => number k % 2 ^ 64 + more k) ↔
        Fit mode (fun k => number k + more k) := by
      refine forall_congr' fun hmode => forall_congr' fun k => ?_
      dsimp only
      rw [Nat.mod_eq_of_lt (hfirst hmode k)]
    rw [h.fits hfirst]
    constructor
    · intro hfit
      refine (hmore.fits (hsame.2 hfit)).trans (congrArg Except.ok ?_)
      exact ofCounts_congr worst' fun k => (Nat.mod_modEq _ _).add_right _
    · intro hnot
      exact hmore.faults fun hfit => hnot (hsame.1 hfit)
  · rw [h.faults hfirst]
    constructor
    · intro hfit
      exact absurd (fun hmode k => Nat.lt_of_le_of_lt (Nat.le_add_right _ _) (hfit hmode k)) hfirst
    · intro _
      rfl

/-- The sum of a count over some counters, as a number. -/
def exactSum (k : Count) (counters : List Counters) : Nat :=
  sumOfWords (counters.map fun c => c.count k)

theorem exactSum_cons (k : Count) (c : Counters) (counters : List Counters) :
    exactSum k (c :: counters) = (c.count k).toNat + exactSum k counters := List.sum_cons

theorem foldlM_add_isTotal (mode : OverflowMode) (first : Counters) (counters : List Counters) :
    IsTotal mode (fun k => (first.count k).toNat + exactSum k counters)
      ((counters.map worstLatency).foldl max first.worstLatency)
      (counters.foldlM (add mode) first) := by
  induction counters generalizing first with
  | nil =>
    constructor
    · intro _
      exact congrArg Except.ok (ofCounts_count first).symm
    · intro hnot
      exact absurd (fun _ k => (first.count k).toNat_lt) hnot
  | cons c counters ih =>
    have hassoc : ∀ k, (first.count k).toNat + exactSum k (c :: counters) =
        together first c k + exactSum k counters := fun k => by
      rw [exactSum_cons, together, Nat.add_assoc]
    simp only [hassoc]
    rw [List.foldlM_cons]
    exact (add_isTotal mode first c).bind (ih _)

/-- The largest latency of some counters, or 0 without any. -/
def worstOf (counters : List Counters) : UInt64 := (counters.map worstLatency).foldl max 0

theorem toNat_worstOf (counters : List Counters) :
    (worstOf counters).toNat = (counters.map fun c => c.worstLatency.toNat).foldl max 0 := by
  rw [worstOf, List.foldl_map, List.foldl_map]
  exact (List.foldl_hom UInt64.toNat fun w c => (UInt64.toNat_max w c.worstLatency).symm).symm

theorem sumOf_isTotal (mode : OverflowMode) (counters : List Counters) :
    IsTotal mode (exactSum · counters) (worstOf counters) (StatsTable.sumOf mode counters) := by
  have htotal := foldlM_add_isTotal mode zero counters
  have hzero : ∀ k, (zero.count k).toNat = 0 := fun k => by cases k <;> rfl
  simp only [hzero, Nat.zero_add] at htotal
  exact htotal

/-! ## The order of the counters -/

variable {counters counters' : List Counters}

theorem exactSum_perm (h : counters.Perm counters') (k : Count) :
    exactSum k counters = exactSum k counters' :=
  ((h.map _).map _).sum_nat

theorem worstOf_perm (h : counters.Perm counters') : worstOf counters = worstOf counters' := by
  rw [← UInt64.toNat_inj, toNat_worstOf, toNat_worstOf]
  exact (h.map _).foldl_eq 0

/-- The total does not depend on the order of the counters. -/
theorem sumOf_perm (mode : OverflowMode) (h : counters.Perm counters') :
    StatsTable.sumOf mode counters = StatsTable.sumOf mode counters' := by
  have htotal := sumOf_isTotal mode counters
  simp only [exactSum_perm h, worstOf_perm h] at htotal
  exact htotal.outcome_eq (sumOf_isTotal mode counters')

end Counters

/-! ## The streams of a table -/

namespace StatsStore

open Counters (exactSum)

variable {m : StatsStore} {t : TableRef} {rows : List (StreamId × Counters)}

/-- The streams of a table with their counters, each stream once, in any order. -/
structure Lists (m : StatsStore) (t : TableRef) (rows : List (StreamId × Counters)) : Prop where
  nodup : (rows.map Prod.fst).Nodup
  mem_iff (stream : StreamId) (c : Counters) : (stream, c) ∈ rows ↔ m.get? t stream = some c

theorem lists_rows (m : StatsStore) (t : TableRef) : m.Lists t (m.rows t) where
  nodup := by
    rw [List.Nodup, List.pairwise_map]
    refine (m.ascending_rows t).imp ?_
    rintro a b hbefore hsame
    rw [hsame, ← StreamId.compare_eq_lt_iff, Std.ReflOrd.compare_self] at hbefore
    cases hbefore
  mem_iff := m.mem_rows_iff t

theorem Lists.of_perm (h : m.Lists t rows) {rows' : List (StreamId × Counters)}
    (hperm : rows'.Perm rows) : m.Lists t rows' where
  nodup := (hperm.map Prod.fst).nodup_iff.2 h.nodup
  mem_iff stream c := hperm.mem_iff.trans (h.mem_iff stream c)

theorem Lists.perm (h : m.Lists t rows) : rows.Perm (m.rows t) := by
  have hrows := m.lists_rows t
  refine (List.perm_ext_iff_of_nodup (h.nodup.of_map _) (hrows.nodup.of_map _)).2 ?_
  rintro ⟨stream, c⟩
  rw [h.mem_iff, hrows.mem_iff]

/-! ## The total -/

/-- What is promised of the total of some counters in each mode. -/
structure TotalLaws (counters : List Counters) (total : OverflowMode → Except Fault Counters) :
    Prop where
  /-- In trapping mode there is none exactly if some count has a sum that is no word. -/
  fault_iff (fault : Fault) :
    total .trapping = .error fault ↔
      fault = .overflow .add ∧ ∃ k, 2 ^ 64 ≤ exactSum k counters
  /-- Otherwise every count is the sum. -/
  trapping : (∀ k, exactSum k counters < 2 ^ 64) →
    ∃ c, total .trapping = .ok c ∧ ∀ k, (c.count k).toNat = exactSum k counters
  silent : ∃ c, total .silent = .ok c ∧ ∀ k, (c.count k).toNat = exactSum k counters % 2 ^ 64
  /-- The largest latency is that of all streams, or 0 without any. -/
  worstLatency (mode : OverflowMode) (c : Counters) : total mode = .ok c →
    c.worstLatency.toNat = (counters.map fun d => d.worstLatency.toNat).foldl max 0

theorem totalLaws_sumOf (counters : List Counters) :
    TotalLaws counters (StatsTable.sumOf · counters) := by
  have htotal := fun mode => Counters.sumOf_isTotal mode counters
  have hsilent : Counters.Fit .silent (exactSum · counters) := fun hmode => nomatch hmode
  constructor
  · intro fault
    by_cases hfit : Counters.Fit .trapping (exactSum · counters)
    · rw [(htotal .trapping).fits hfit]
      constructor
      · intro herror
        cases herror
      · rintro ⟨-, k, hk⟩
        exact absurd (hfit rfl k) (Nat.not_lt.2 hk)
    · obtain ⟨-, hover⟩ := Classical.not_imp.1 hfit
      obtain ⟨k, hk⟩ := not_forall.1 hover
      rw [(htotal .trapping).faults hfit, Except.error.injEq]
      exact ⟨fun hfault => ⟨hfault.symm, k, Nat.not_lt.1 hk⟩, fun hfault => hfault.1.symm⟩
  · intro hwords
    refine ⟨_, (htotal .trapping).fits fun _ => hwords, fun k => ?_⟩
    rw [Counters.toNat_count_ofCounts, Nat.mod_eq_of_lt (hwords k)]
  · exact ⟨_, (htotal .silent).fits hsilent, fun k => Counters.toNat_count_ofCounts _ _ k⟩
  · intro mode c hc
    by_cases hfit : Counters.Fit mode (exactSum · counters)
    · rw [(htotal mode).fits hfit] at hc
      rw [← Except.ok.inj hc]
      exact Counters.toNat_worstOf counters
    · rw [(htotal mode).faults hfit] at hc
      cases hc

/-- In whichever order the streams of a table are found, their total is the same: the sums of the
counts and the largest of the largest latencies. In trapping mode there is none where a sum is no
word. -/
theorem total_in_any_order (hrows : m.Lists t rows) :
    (∀ mode, StatsTable.sumOf mode (rows.map Prod.snd) = m.total mode t) ∧
      TotalLaws (rows.map Prod.snd) fun mode => m.total mode t := by
  have hsame : ∀ mode, StatsTable.sumOf mode (rows.map Prod.snd) = m.total mode t := fun mode =>
    Counters.sumOf_perm mode (hrows.perm.map Prod.snd)
  refine ⟨hsame, ?_⟩
  have hlaws := totalLaws_sumOf (rows.map Prod.snd)
  simpa only [hsame] using hlaws

/-- Two streams of which one has missed as much as a word can count, found from the last one on. -/
theorem total_in_any_order_two_streams :
    let first : StreamId := ⟨⟨1⟩, ⟨7⟩⟩
    let second : StreamId := ⟨⟨2⟩, ⟨-7⟩⟩
    let m := (Session.run
      [.addTable, .hold 0 first, .hold 0 second, .record 0 (.gap 18446744073709551615),
        .record 0 (.message 30), .record 1 (.gap 2), .record 1 (.message 40),
        .reconnect 0 first]).store
    let rows : List (StreamId × Counters) :=
      [(second, ⟨1, 1, 2, 40, 1, 40, 0⟩), (first, ⟨1, 1, 18446744073709551615, 30, 1, 30, 1⟩)]
    m.Lists ⟨0⟩ rows ∧
      (∀ mode, StatsTable.sumOf mode (rows.map Prod.snd) = m.total mode ⟨0⟩) ∧
      TotalLaws (rows.map Prod.snd) (fun mode => m.total mode ⟨0⟩) ∧
      m.total .trapping ⟨0⟩ = .error (.overflow .add) ∧
      m.total .silent ⟨0⟩ = .ok ⟨2, 2, 1, 70, 2, 40, 1⟩ := by
  intro first second m rows
  have hrows : m.rows ⟨0⟩ = rows.reverse := by decide +kernel
  have hlists : m.Lists ⟨0⟩ rows := by
    refine (m.lists_rows ⟨0⟩).of_perm ?_
    rw [hrows]
    exact (List.reverse_perm rows).symm
  obtain ⟨hsame, hlaws⟩ := total_in_any_order hlists
  refine ⟨hlists, hsame, hlaws, ?_, ?_⟩
  · rw [← hsame]
    decide
  · rw [← hsame]
    decide

end StatsStore

end DepthFeed

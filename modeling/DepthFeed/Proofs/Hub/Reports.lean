import Mathlib.Algebra.BigOperators.Group.Finset.Piecewise
import Mathlib.Algebra.Order.BigOperators.Group.List
import Mathlib.Algebra.Order.Group.Nat
import DepthFeed.Proofs.Hub.Actions
import DepthFeed.Proofs.Stats.Ledger

/-!
# Counters that show reports

Every report of a dispatch tells of one event of one stream, and of a gap if there was one. The
counters of a stream show what the reports told of it, whether a dispatch made them or someone who
looked at the stream before its first event.

* `Handled.onStream`, `Handled.gaps`, `Handled.missing`: what reports tell of a stream, and of gaps.
* `Handled.sum_onStream`: what reports tell of the streams adds up to what they tell.
* `Counters.Counts`: the counters of one stream.
* `StatsTable.Shows`: the counters of all streams, and what they count together.
-/

namespace DepthFeed

/-! ## What reports tell -/

namespace Handled

def onStream (stream : StreamId) (log : List Handled) : List Handled :=
  log.filter fun h => h.event.stream = stream

def gaps (log : List Handled) : List Gap := log.filterMap fun h => h.report.gap

/-- How many numbers the gaps of some reports skip. -/
def missing (log : List Handled) : Nat := ((gaps log).map fun gap => gap.missing.toNat).sum

variable {log : List Handled} {h : Handled} {stream : StreamId}

theorem onStream_append_own (h : Handled) (log : List Handled) :
    onStream h.event.stream (log ++ [h]) = onStream h.event.stream log ++ [h] := by
  simp [onStream]

theorem onStream_append_other (hother : h.event.stream ≠ stream) (log : List Handled) :
    onStream stream (log ++ [h]) = onStream stream log := by
  simp [onStream, hother]

theorem gaps_append_singleton (log : List Handled) (h : Handled) :
    gaps (log ++ [h]) = gaps log ++ h.report.gap.toList := by
  unfold gaps
  rw [List.filterMap_append]
  cases hgap : h.report.gap <;> simp [hgap]

theorem missing_append_singleton (log : List Handled) (h : Handled) :
    missing (log ++ [h]) = missing log + h.report.gap.elim 0 fun gap => gap.missing.toNat := by
  unfold missing
  rw [gaps_append_singleton, List.map_append, List.sum_append]
  cases h.report.gap <;> simp

/-- What each report weighs adds up over the streams to what all reports weigh. -/
theorem sum_onStream (weight : Handled → Nat) {streams : Finset StreamId}
    (hcover : ∀ h ∈ log, h.event.stream ∈ streams) :
    ∑ stream ∈ streams, ((onStream stream log).map weight).sum = (log.map weight).sum := by
  induction log with
  | nil => simp [onStream]
  | cons h log ih =>
    have hsplit : ∀ stream, ((onStream stream (h :: log)).map weight).sum =
        (if h.event.stream = stream then weight h else 0) +
          ((onStream stream log).map weight).sum := by
      intro stream
      by_cases hstream : h.event.stream = stream <;> simp [onStream, hstream]
    simp only [hsplit]
    rw [Finset.sum_add_distrib, Finset.sum_ite_eq, if_pos (hcover h List.mem_cons_self),
      ih fun other hother => hcover other (List.mem_cons_of_mem _ hother), List.map_cons,
      List.sum_cons]

theorem length_eq_sum (log : List Handled) : log.length = (log.map fun _ => 1).sum := by
  simp

theorem length_gaps_eq_sum (log : List Handled) :
    (gaps log).length = (log.map fun h => h.report.gap.toList.length).sum := by
  induction log using List.reverseRecOn with
  | nil => rfl
  | append_singleton log h ih =>
    rw [gaps_append_singleton, List.length_append, List.map_append, List.sum_append, ih]
    simp

theorem missing_eq_sum (log : List Handled) :
    missing log = (log.map fun h => h.report.gap.elim 0 fun gap => gap.missing.toNat).sum := by
  induction log using List.reverseRecOn with
  | nil => rfl
  | append_singleton log h ih =>
    rw [missing_append_singleton, List.map_append, List.sum_append, ih]
    simp

theorem sum_onStream_le (weight : Handled → Nat) (stream : StreamId) (log : List Handled) :
    ((onStream stream log).map weight).sum ≤ (log.map weight).sum :=
  (List.filter_sublist.map weight).sum_le_sum fun _ _ => Nat.zero_le _

end Handled

/-! ## Counters -/

/-- Counters of the events, and of the gaps, that some reports tell of. -/
structure Counters.Counts (c : Counters) (log : List Handled) : Prop where
  messages_eq : c.messages = .ofNat log.length
  samples_eq : c.samples = .ofNat log.length
  gaps_eq : c.gaps = .ofNat (Handled.gaps log).length
  missing_eq : c.missing = .ofNat (Handled.missing log)

namespace Counters.Counts

variable {c : Counters} {log : List Handled} {h : Handled}

theorem zero : Counters.zero.Counts [] := ⟨rfl, rfl, rfl, rfl⟩

/-- An event without a gap is counted as a message. -/
theorem message (hcounts : c.Counts log) (hgap : h.report.gap = none) (latency : Int64) :
    (c.countMessage latency).Counts (log ++ [h]) := by
  constructor
  · rw [List.length_append, UInt64.ofNat_add, ← hcounts.messages_eq]
    rfl
  · rw [List.length_append, UInt64.ofNat_add, ← hcounts.samples_eq]
    rfl
  · rw [Handled.gaps_append_singleton, hgap, Option.toList_none, List.append_nil]
    exact hcounts.gaps_eq
  · rw [Handled.missing_append_singleton, hgap]
    exact hcounts.missing_eq

/-- An event with a gap is counted as a message and as a gap. -/
theorem messageAndGap (hcounts : c.Counts log) {gap : Gap} (hgap : h.report.gap = some gap)
    (latency : Int64) :
    ((c.countMessage latency).countGap gap.missing).Counts (log ++ [h]) := by
  constructor
  · rw [List.length_append, UInt64.ofNat_add, ← hcounts.messages_eq]
    rfl
  · rw [List.length_append, UInt64.ofNat_add, ← hcounts.samples_eq]
    rfl
  · rw [Handled.gaps_append_singleton, hgap, List.length_append, UInt64.ofNat_add,
      ← hcounts.gaps_eq]
    rfl
  · rw [Handled.missing_append_singleton, hgap, UInt64.ofNat_add, ← hcounts.missing_eq]
    show _ = c.missing + .ofNat gap.missing.toNat
    rw [UInt64.ofNat_toNat]
    rfl

theorem reconnect (hcounts : c.Counts log) : c.countReconnect.Counts log :=
  ⟨hcounts.messages_eq, hcounts.samples_eq, hcounts.gaps_eq, hcounts.missing_eq⟩

end Counters.Counts

namespace StatsTable

variable {t : StatsTable} {log : List Handled}

/-- The counters of every stream count what some reports tell of the stream, and there are counters
for every stream that they tell of. -/
structure Shows (t : StatsTable) (log : List Handled) : Prop where
  counts (stream : StreamId) : (t.countersOf stream).Counts (Handled.onStream stream log)
  tracked (h : Handled) : h ∈ log → (t.get? h.event.stream).isSome

namespace Shows

theorem empty : StatsTable.empty.Shows [] where
  counts stream := by
    have hzero : StatsTable.empty.countersOf stream = .zero := by
      simp [StatsTable.empty, countersOf, get?]
    rw [hzero]
    exact .zero
  tracked h hmem := nomatch hmem

/-- A change of one stream that counts nothing keeps what is shown. -/
theorem of_changed (hshows : t.Shows log) {t' : StatsTable} {stream : StreamId} {c : Counters}
    (hget : ∀ other, t'.get? other = if stream = other then some c else t.get? other)
    (hcounts : c.Counts (Handled.onStream stream log)) : t'.Shows log := by
  constructor
  · intro other
    unfold countersOf
    rw [hget]
    split
    · rename_i hother
      rw [← hother]
      exact hcounts
    · exact hshows.counts other
  · intro h hmem
    rw [hget]
    split
    · rfl
    · exact hshows.tracked h hmem

theorem track (hshows : t.Shows log) (stream : StreamId) : (t.track stream).1.Shows log :=
  hshows.of_changed (get?_track t stream) (hshows.counts stream)

theorem countReconnect (hshows : t.Shows log) (stream : StreamId) :
    (t.countReconnect stream).1.Shows log :=
  hshows.of_changed (fun other => get?_record t stream other _) (hshows.counts stream).reconnect

/-- One more report is shown by the counters of its stream. -/
theorem append (hshows : t.Shows log) {t' : StatsTable} {h : Handled} {c : Counters}
    (hget : ∀ other, t'.get? other = if h.event.stream = other then some c else t.get? other)
    (hcounts : c.Counts (Handled.onStream h.event.stream log ++ [h])) : t'.Shows (log ++ [h]) := by
  constructor
  · intro other
    unfold countersOf
    rw [hget]
    by_cases hother : h.event.stream = other
    · rw [if_pos hother, ← hother, Handled.onStream_append_own]
      exact hcounts
    · rw [if_neg hother, Handled.onStream_append_other hother]
      exact hshows.counts other
  · intro other hmem
    rw [hget]
    split
    · rfl
    · rename_i hne
      rcases List.mem_append.1 hmem with hearlier | hlast
      · exact hshows.tracked other hearlier
      · rw [List.mem_singleton.1 hlast] at hne
        exact absurd rfl hne

theorem get?_countGap_countMessage (t : StatsTable) (stream other : StreamId) (latency : Int64)
    (missing : UInt64) :
    ((t.countMessage stream latency).1.countGap stream missing).1.get? other =
      if stream = other then some (((t.countersOf stream).countMessage latency).countGap missing)
      else t.get? other := by
  unfold countGap countMessage
  rw [get?_record, get?_record, get?_record, if_pos rfl]
  split <;> rfl

/-- What the counters of the streams count together. -/
theorem isLedger (hshows : t.Shows log) {read : Counters → UInt64} {weight : Handled → Nat}
    (hread : ∀ {c : Counters} {told : List Handled}, c.Counts told →
      read c = .ofNat (told.map weight).sum) :
    IsLedger (t.toList.map fun row => read row.2) (log.map weight).sum (log.map weight).sum := by
  have hkeys : t.toList.map Prod.fst = t.streams.keys := Std.TreeMap.map_fst_toList_eq_keys
  have hnodup : (t.toList.map Prod.fst).Nodup := by
    rw [hkeys]
    exact Std.TreeMap.nodup_keys
  have hcover : ∀ h ∈ log, h.event.stream ∈ (t.toList.map Prod.fst).toFinset := by
    intro h hmem
    have htracked := hshows.tracked h hmem
    rw [List.mem_toFinset, hkeys, Std.TreeMap.mem_keys]
    simpa [get?] using htracked
  refine ⟨t.toList.map fun row => ((Handled.onStream row.1 log).map weight).sum, ?_, ?_, ?_⟩
  · rw [List.map_map]
    refine List.map_congr_left fun row hrow => ?_
    have hcounters : t.countersOf row.1 = row.2 := by
      have hget : t.get? row.1 = some row.2 := Std.TreeMap.mem_toList_iff_getElem?_eq_some.1 hrow
      rw [countersOf, hget]
      rfl
    rw [← hcounters, hread (hshows.counts row.1)]
    rfl
  · rw [← Handled.sum_onStream weight hcover, List.sum_toFinset _ hnodup, List.map_map]
    rfl
  · intro count hcount
    obtain ⟨row, -, rfl⟩ := List.mem_map.1 hcount
    exact Handled.sum_onStream_le weight row.1 log

end Shows

end StatsTable

end DepthFeed

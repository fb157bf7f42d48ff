import Mathlib.Algebra.Ring.Nat
import Mathlib.Data.List.Induction
import DepthFeed.Proofs.Stats.Table
import DepthFeed.Stats.Store

/-!
# What recordings tell

The counters of a stream are determined by what was recorded of it: the counts and the sums wrap
around at `2 ^ 64`, and the largest latency does not.

* `Recording.latencies`, `Recording.missings`, `Recording.reconnects`: what recordings tell.
* `Counters.Tells`: counters that tell what was recorded.
* `StatsTable.ofEntries`: a table after the touches and recordings of some streams.
* `StatsTable.get?_ofEntries`: a stream of it shows its own recordings, if it was touched at all.
-/

namespace DepthFeed

/-! ## Recordings -/

namespace Recording

/-- The latency of a message, where a message from the future has none. -/
def latency? : Recording → Option Nat
  | message latency => some latency.toInt.toNat
  | _ => none

def missing? : Recording → Option Nat
  | gap missing => some missing.toNat
  | _ => none

def latencies (recordings : List Recording) : List Nat := recordings.filterMap latency?

def missings (recordings : List Recording) : List Nat := recordings.filterMap missing?

def reconnects (recordings : List Recording) : Nat := recordings.count reconnect

theorem latencies_append_singleton (recordings : List Recording) (last : Recording) :
    latencies (recordings ++ [last]) = latencies recordings ++ last.latency?.toList := by
  unfold latencies
  cases hlatency : last.latency? <;> simp [hlatency]

theorem missings_append_singleton (recordings : List Recording) (last : Recording) :
    missings (recordings ++ [last]) = missings recordings ++ last.missing?.toList := by
  unfold missings
  cases hmissing : last.missing? <;> simp [hmissing]

theorem reconnects_append_singleton (recordings : List Recording) (last : Recording) :
    reconnects (recordings ++ [last]) =
      reconnects recordings + if last = .reconnect then 1 else 0 := by
  unfold reconnects
  rw [List.count_append, List.count_singleton]
  simp

end Recording

theorem Counters.toNat_latencyOf (latency : Int64) :
    (latencyOf latency).toNat = latency.toInt.toNat := by
  have hlt : latency.toInt.toNat < 2 ^ 64 := by
    have := latency.toInt_lt
    omega
  exact UInt64.toNat_ofNat_of_lt' hlt

/-- Counters that tell what was recorded. -/
structure Counters.Tells (c : Counters) (recordings : List Recording) : Prop where
  messages_eq : c.messages.toNat = (Recording.latencies recordings).length % 2 ^ 64
  samples_eq : c.samples.toNat = (Recording.latencies recordings).length % 2 ^ 64
  latencySum_eq : c.latencySum.toNat = (Recording.latencies recordings).sum % 2 ^ 64
  /-- The largest latency, or 0 without any. -/
  worstLatency_eq : c.worstLatency.toNat = (Recording.latencies recordings).foldl max 0
  gaps_eq : c.gaps.toNat = (Recording.missings recordings).length % 2 ^ 64
  missing_eq : c.missing.toNat = (Recording.missings recordings).sum % 2 ^ 64
  reconnects_eq : c.reconnects.toNat = Recording.reconnects recordings % 2 ^ 64

namespace Counters.Tells

variable {c : Counters} {recordings : List Recording}

theorem zero : Counters.zero.Tells [] := ⟨rfl, rfl, rfl, rfl, rfl, rfl, rfl⟩

/-- A word that counts more wraps around as the number that it stands for does. -/
theorem word_add {word more : UInt64} {number extra : Nat} (hword : word.toNat = number % 2 ^ 64)
    (hmore : more.toNat = extra % 2 ^ 64) : (word + more).toNat = (number + extra) % 2 ^ 64 := by
  rw [UInt64.toNat_add, hword, hmore, ← Nat.add_mod]

/-- One recording more is told by the counters after it. -/
theorem recorded (h : c.Tells recordings) (last : Recording) :
    (c.recorded last).Tells (recordings ++ [last]) := by
  constructor
  · rw [Recording.latencies_append_singleton, List.length_append]
    cases last with
    | message latency => exact word_add h.messages_eq rfl
    | gap missing => exact h.messages_eq
    | reconnect => exact h.messages_eq
  · rw [Recording.latencies_append_singleton, List.length_append]
    cases last with
    | message latency => exact word_add h.samples_eq rfl
    | gap missing => exact h.samples_eq
    | reconnect => exact h.samples_eq
  · rw [Recording.latencies_append_singleton, List.sum_append]
    cases last with
    | message latency =>
      refine word_add h.latencySum_eq ?_
      rw [← Nat.mod_eq_of_lt (UInt64.toNat_lt (latencyOf latency)), toNat_latencyOf]
      rfl
    | gap missing => exact h.latencySum_eq
    | reconnect => exact h.latencySum_eq
  · rw [Recording.latencies_append_singleton, List.foldl_append, ← h.worstLatency_eq]
    cases last with
    | message latency =>
      refine (UInt64.toNat_max _ _).trans ?_
      rw [toNat_latencyOf]
      rfl
    | gap missing => rfl
    | reconnect => rfl
  · rw [Recording.missings_append_singleton, List.length_append]
    cases last with
    | message latency => exact h.gaps_eq
    | gap missing => exact word_add h.gaps_eq rfl
    | reconnect => exact h.gaps_eq
  · rw [Recording.missings_append_singleton, List.sum_append]
    cases last with
    | message latency => exact h.missing_eq
    | gap missing => exact word_add h.missing_eq (Nat.mod_eq_of_lt missing.toNat_lt).symm
    | reconnect => exact h.missing_eq
  · rw [Recording.reconnects_append_singleton]
    cases last with
    | message latency => exact h.reconnects_eq
    | gap missing => exact h.reconnects_eq
    | reconnect => exact word_add h.reconnects_eq rfl

/-- Counts that never wrapped around are the numbers themselves. -/
theorem counts_eq (h : c.Tells recordings) (hfew : recordings.length < 2 ^ 64) :
    c.messages.toNat = (Recording.latencies recordings).length ∧
      c.samples.toNat = (Recording.latencies recordings).length ∧
      c.gaps.toNat = (Recording.missings recordings).length ∧
      c.reconnects.toNat = Recording.reconnects recordings := by
  have hlatencies : (Recording.latencies recordings).length < 2 ^ 64 :=
    Nat.lt_of_le_of_lt (List.length_filterMap_le _ _) hfew
  have hmissings : (Recording.missings recordings).length < 2 ^ 64 :=
    Nat.lt_of_le_of_lt (List.length_filterMap_le _ _) hfew
  have hreconnects : Recording.reconnects recordings < 2 ^ 64 :=
    Nat.lt_of_le_of_lt List.count_le_length hfew
  refine ⟨?_, ?_, ?_, ?_⟩
  · rw [h.messages_eq, Nat.mod_eq_of_lt hlatencies]
  · rw [h.samples_eq, Nat.mod_eq_of_lt hlatencies]
  · rw [h.gaps_eq, Nat.mod_eq_of_lt hmissings]
  · rw [h.reconnects_eq, Nat.mod_eq_of_lt hreconnects]

theorem foldl_recorded (recordings : List Recording) :
    (recordings.foldl Counters.recorded .zero).Tells recordings := by
  induction recordings using List.reverseRecOn with
  | nil => exact zero
  | append_singleton recordings last ih =>
    rw [List.foldl_append]
    exact ih.recorded last

end Counters.Tells

/-! ## Entries -/

/-- A stream is touched, and perhaps something is recorded of it. -/
structure Entry where
  stream : StreamId
  recording : Option Recording
deriving DecidableEq, Repr

namespace StatsTable

def enter (t : StatsTable) (entry : Entry) : StatsTable :=
  match entry.recording with
  | none => (t.track entry.stream).1
  | some recording => (t.record entry.stream (·.recorded recording)).1

/-- The table after some entries, one after the other. -/
def ofEntries (entries : List Entry) : StatsTable := entries.foldl enter empty

theorem ofEntries_append (earlier later : List Entry) :
    ofEntries (earlier ++ later) = later.foldl enter (ofEntries earlier) := List.foldl_append

/-- What was recorded of a stream. -/
def recordingsOf (stream : StreamId) (entries : List Entry) : List Recording :=
  (entries.filter fun entry => entry.stream = stream).filterMap Entry.recording

theorem recordingsOf_append_singleton (stream : StreamId) (entries : List Entry) (last : Entry) :
    recordingsOf stream (entries ++ [last]) =
      recordingsOf stream entries ++
        if last.stream = stream then last.recording.toList else [] := by
  unfold recordingsOf
  rw [List.filter_append, List.filterMap_append]
  by_cases hstream : last.stream = stream
  · cases hrecording : last.recording <;> simp [hstream, hrecording]
  · simp [hstream]

theorem get?_enter (t : StatsTable) (entry : Entry) (stream : StreamId) :
    (t.enter entry).get? stream =
      if entry.stream = stream then
        some (entry.recording.toList.foldl Counters.recorded (t.countersOf stream))
      else t.get? stream := by
  unfold enter
  cases entry.recording with
  | none =>
    dsimp only
    rw [get?_track]
    split
    · rename_i hstream
      rw [hstream]
      rfl
    · rfl
  | some recording =>
    dsimp only
    rw [get?_record]
    split
    · rename_i hstream
      rw [hstream]
      rfl
    · rfl

/-- A stream that was touched shows what was recorded of it, and one that was not shows nothing. -/
theorem get?_ofEntries (entries : List Entry) (stream : StreamId) :
    (ofEntries entries).get? stream =
      if stream ∈ entries.map Entry.stream then
        some ((recordingsOf stream entries).foldl Counters.recorded .zero)
      else none := by
  induction entries using List.reverseRecOn with
  | nil => simp [ofEntries, empty, get?]
  | append_singleton entries last ih =>
    have hlast : ofEntries (entries ++ [last]) = (ofEntries entries).enter last :=
      ofEntries_append entries [last]
    -- a stream that was not touched before has no earlier recordings
    have hcounters : (ofEntries entries).countersOf stream =
        (recordingsOf stream entries).foldl Counters.recorded .zero := by
      rw [countersOf, ih]
      split
      · rfl
      · rename_i hnew
        have hnone : entries.filter (fun entry => entry.stream = stream) = [] := by
          rw [List.filter_eq_nil_iff]
          intro entry hentry
          have hne : entry.stream ≠ stream := by
            rintro rfl
            exact hnew (List.mem_map_of_mem hentry)
          simpa using hne
        rw [recordingsOf, hnone]
        rfl
    rw [hlast, get?_enter, recordingsOf_append_singleton, List.map_append, List.map_singleton]
    by_cases hstream : last.stream = stream
    · have hmem : stream ∈ entries.map Entry.stream ++ [last.stream] := by
        rw [hstream]
        exact List.mem_append_right _ List.mem_cons_self
      rw [if_pos hstream, if_pos hstream, if_pos hmem, hcounters, List.foldl_append]
    · have hmem : stream ∈ entries.map Entry.stream ++ [last.stream] ↔
          stream ∈ entries.map Entry.stream := by
        simp [Ne.symm hstream]
      rw [if_neg hstream, if_neg hstream, List.append_nil, ih]
      simp only [hmem]

end StatsTable

end DepthFeed

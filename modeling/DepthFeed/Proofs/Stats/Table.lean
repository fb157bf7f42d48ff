import DepthFeed.Stats.Table

/-!
# The counters of each stream in a table

What a change of a table does to the counters of each stream: those of its own stream change, and
all others stay as they are.
-/

namespace DepthFeed.StatsTable

/-- A stream without counters counts as one that counted nothing. -/
def countersOf (t : StatsTable) (stream : StreamId) : Counters := (t.get? stream).getD .zero

theorem get?_record (t : StatsTable) (stream other : StreamId) (change : Counters → Counters) :
    (t.record stream change).1.get? other =
      if stream = other then some (change ((t.get? stream).getD .zero)) else t.get? other := by
  simp only [record, get?, Std.TreeMap.getElem?_insert]
  simp

theorem track_of_get? {t : StatsTable} {stream : StreamId} {c : Counters}
    (h : t.get? stream = some c) : t.track stream = (t, []) := by
  have hcontains : t.streams.contains stream = true := by
    rw [Std.TreeMap.contains_eq_isSome_getElem?]
    exact Option.isSome_of_eq_some h
  rw [track, if_pos hcontains]

theorem track_of_get?_none {t : StatsTable} {stream : StreamId} (h : t.get? stream = none) :
    t.track stream = (⟨t.streams.insert stream .zero⟩, [.streamTracked stream]) := by
  have hcontains : ¬ t.streams.contains stream = true := by
    rw [Std.TreeMap.contains_eq_isSome_getElem?]
    exact Option.not_isSome_iff_eq_none.2 h
  rw [track, if_neg hcontains]

theorem get?_track (t : StatsTable) (stream other : StreamId) :
    (t.track stream).1.get? other =
      if stream = other then some (t.countersOf stream) else t.get? other := by
  cases hget : t.get? stream with
  | some c =>
    rw [track_of_get? hget, countersOf, hget]
    split
    · rename_i hother
      rw [← hother, hget]
      rfl
    · rfl
  | none =>
    rw [track_of_get?_none hget, countersOf, hget]
    simp [get?, Std.TreeMap.getElem?_insert]

end DepthFeed.StatsTable

import DepthFeed.Proofs.Stats.Table
import DepthFeed.Stats.Store

/-!
# Where counters are kept

Every stream of every table has counters of its own, and every reference to them leads there. So a
recording is seen by all who look at its stream, and by nobody else.

* `StatsStore.WellFormed`: the references of a store lead to counters, and those of two streams
  never to the same.
* `StatsStore.get?_track`, `StatsStore.get?_record`: what a change does to each stream of each table.
* `StatsStore.inOrder_eq_rows`: a snapshot has the rows of a table in the order of their streams, in
  whichever order they were found.
* `StatsStore.Shows`: a table of a store that shows what a `StatsTable` does.
-/

namespace DepthFeed

/-! ## The order of streams -/

/-- The stream of the earlier exchange comes first, and within an exchange that of the earlier
instrument. -/
def StreamId.IsBefore (a b : StreamId) : Prop :=
  a.exchange.number < b.exchange.number ∨
    a.exchange.number = b.exchange.number ∧ a.instrument.number < b.instrument.number

theorem StreamId.compare_eq_lt_iff (a b : StreamId) : compare a b = .lt ↔ a.IsBefore b := by
  rw [compare_def, Ordering.then_eq_lt, IsBefore, Std.compare_eq_lt, Std.compare_eq_lt,
    Std.compare_eq_iff_eq]

namespace StatsStore

variable {m : StatsStore} {t other : TableRef} {stream stream' : StreamId} {ref : CountersRef}

/-! ## References -/

/-- The table that a reference leads to is there. -/
def HasTable (m : StatsStore) (t : TableRef) : Prop := t.place < m.tables.size

@[simp]
theorem ref?_addTable (m : StatsStore) (t : TableRef) (stream : StreamId) :
    m.addTable.2.ref? t stream = m.ref? t stream := by
  unfold ref? addTable
  rw [Array.getElem?_push]
  split
  · rename_i hplace
    rw [hplace, Array.getElem?_eq_none (Nat.le_refl _)]
    simp
  · rfl

@[simp]
theorem ref?_record (m : StatsStore) (ref : CountersRef) (recording : Recording) (t : TableRef)
    (stream : StreamId) : (m.record ref recording).ref? t stream = m.ref? t stream := rfl

theorem ref?_track (ht : m.HasTable t) (stream : StreamId) (other : TableRef)
    (stream' : StreamId) :
    (m.track t stream).2.1.ref? other stream' =
      if t = other ∧ stream = stream' then some (m.track t stream).1
      else m.ref? other stream' := by
  unfold track
  cases href : m.ref? t stream with
  | some ref =>
    dsimp only
    split
    · rename_i hsame
      rw [← hsame.1, ← hsame.2, href]
    · rfl
  | none =>
    dsimp only
    unfold ref?
    rw [Array.getElem?_modify]
    by_cases hplace : t.place = other.place
    · obtain rfl : t = other := by
        cases t
        cases other
        exact congrArg TableRef.mk hplace
      rw [if_pos rfl, Array.getElem?_eq_getElem ht, Option.map_some, Option.bind_some,
        Option.bind_some, Std.TreeMap.getElem?_insert]
      simp
    · have hne : t ≠ other := fun heq => hplace (congrArg TableRef.place heq)
      rw [if_neg hplace, if_neg fun hsame => hne hsame.1]

/-- A stream keeps its reference from the time that it is first touched. -/
theorem ref?_track_of_some (ht : m.HasTable t) (stream : StreamId)
    (href : m.ref? other stream' = some ref) :
    (m.track t stream).2.1.ref? other stream' = some ref := by
  rw [ref?_track ht]
  split
  · rename_i hsame
    rw [← hsame.1, ← hsame.2] at href
    simp [track, href]
  · exact href

/-- A touched stream has the reference that the touch gives. -/
theorem ref?_track_self (ht : m.HasTable t) (stream : StreamId) :
    (m.track t stream).2.1.ref? t stream = some (m.track t stream).1 := by
  rw [ref?_track ht, if_pos ⟨rfl, rfl⟩]

theorem size_tables_track (m : StatsStore) (t : TableRef) (stream : StreamId) :
    (m.track t stream).2.1.tables.size = m.tables.size := by
  unfold track
  split
  · rfl
  · exact Array.size_modify

/-! ## Well-formed stores -/

/-- Every reference leads to counters, and those of different streams, or of a stream in different
tables, lead to different ones. -/
structure WellFormed (m : StatsStore) : Prop where
  place_lt {t : TableRef} {stream : StreamId} {ref : CountersRef} :
    m.ref? t stream = some ref → ref.place < m.counters.size
  injective {t other : TableRef} {stream stream' : StreamId} {ref : CountersRef} :
    m.ref? t stream = some ref → m.ref? other stream' = some ref → t = other ∧ stream = stream'

namespace WellFormed

theorem empty : StatsStore.empty.WellFormed where
  place_lt h := by simp [StatsStore.empty, ref?] at h
  injective h := by simp [StatsStore.empty, ref?] at h

theorem addTable (h : m.WellFormed) : m.addTable.2.WellFormed where
  place_lt href := h.place_lt (by rwa [ref?_addTable] at href)
  injective href href' :=
    h.injective (by rwa [ref?_addTable] at href) (by rwa [ref?_addTable] at href')

theorem record (h : m.WellFormed) (ref : CountersRef) (recording : Recording) :
    (m.record ref recording).WellFormed where
  place_lt href := by
    rw [StatsStore.record, Array.size_modify]
    exact h.place_lt href
  injective href href' := h.injective href href'

theorem track (h : m.WellFormed) (ht : m.HasTable t) (stream : StreamId) :
    (m.track t stream).2.1.WellFormed := by
  cases hknown : m.ref? t stream with
  | some known =>
    have hsame : (m.track t stream).2.1 = m := by simp [StatsStore.track, hknown]
    rwa [hsame]
  | none =>
    have hnew : (m.track t stream).1 = ⟨m.counters.size⟩ := by simp [StatsStore.track, hknown]
    have hsize : (m.track t stream).2.1.counters.size = m.counters.size + 1 := by
      simp [StatsStore.track, hknown]
    -- a reference that was there leads to earlier counters than the new one does
    have hearlier : ∀ {other stream' ref}, m.ref? other stream' = some ref →
        ref ≠ ⟨m.counters.size⟩ := by
      rintro other stream' ref href rfl
      exact Nat.lt_irrefl _ (h.place_lt href)
    constructor
    · intro other stream' ref href
      rw [ref?_track ht, hnew] at href
      rw [hsize]
      split at href
      · obtain rfl := Option.some.inj href
        exact Nat.lt_succ_self _
      · exact Nat.lt_succ_of_lt (h.place_lt href)
    · intro first second stream₁ stream₂ ref href href'
      rw [ref?_track ht, hnew] at href href'
      split at href <;> split at href'
      · rename_i hfirst hsecond
        exact ⟨hfirst.1.symm.trans hsecond.1, hfirst.2.symm.trans hsecond.2⟩
      · exact absurd (Option.some.inj href).symm (hearlier href')
      · exact absurd (Option.some.inj href').symm (hearlier href)
      · exact h.injective href href'

end WellFormed

/-! ## Counters -/

theorem read?_record (m : StatsStore) (ref : CountersRef) (recording : Recording)
    (ref' : CountersRef) :
    (m.record ref recording).read? ref' =
      if ref = ref' then (m.read? ref').map (·.recorded recording) else m.read? ref' := by
  unfold read? record
  rw [Array.getElem?_modify]
  by_cases hplace : ref.place = ref'.place
  · have hsame : ref = ref' := by
      cases ref
      cases ref'
      exact congrArg CountersRef.mk hplace
    rw [if_pos hplace, if_pos hsame]
  · have hne : ref ≠ ref' := fun heq => hplace (congrArg CountersRef.place heq)
    rw [if_neg hplace, if_neg hne]

@[simp]
theorem get?_addTable (m : StatsStore) (t : TableRef) (stream : StreamId) :
    m.addTable.2.get? t stream = m.get? t stream := by
  unfold get?
  rw [ref?_addTable]
  rfl

/-- There are counters wherever there is a reference to them. -/
theorem WellFormed.get?_eq_some (h : m.WellFormed) (href : m.ref? t stream = some ref) :
    ∃ c, m.read? ref = some c ∧ m.get? t stream = some c := by
  have hlt := h.place_lt href
  have hread : m.read? ref = some m.counters[ref.place] := Array.getElem?_eq_getElem hlt
  refine ⟨_, hread, ?_⟩
  rw [get?, href]
  exact hread

/-- A stream that is touched has counters, which are new ones if it had none. -/
theorem WellFormed.get?_track (h : m.WellFormed) (ht : m.HasTable t) (stream : StreamId)
    (other : TableRef) (stream' : StreamId) :
    (m.track t stream).2.1.get? other stream' =
      if t = other ∧ stream = stream' then some ((m.get? t stream).getD .zero)
      else m.get? other stream' := by
  rw [get?, ref?_track ht]
  cases hknown : m.ref? t stream with
  | some known =>
    have hsame : m.track t stream = (known, m, []) := by simp [StatsStore.track, hknown]
    rw [hsame]
    split
    · obtain ⟨c, hread, hget⟩ := h.get?_eq_some hknown
      rw [hget]
      exact hread
    · rfl
  | none =>
    have hget : m.get? t stream = none := by rw [get?, hknown, Option.bind_none]
    have hnew : (m.track t stream).1 = ⟨m.counters.size⟩ := by simp [StatsStore.track, hknown]
    have hcounters : (m.track t stream).2.1.counters = m.counters.push .zero := by
      simp [StatsStore.track, hknown]
    rw [hnew, hget]
    split
    · rw [Option.bind_some, read?, hcounters, Array.getElem?_push_size]
      rfl
    · rw [get?]
      refine Option.bind_congr fun place hplace => ?_
      rw [read?, read?, hcounters, Array.getElem?_push_lt (h.place_lt hplace),
        Array.getElem?_eq_getElem (h.place_lt hplace)]

/-- A recording is seen at the stream whose counters it reached, and nowhere else. -/
theorem WellFormed.get?_record (h : m.WellFormed) (href : m.ref? t stream = some ref)
    (recording : Recording) (other : TableRef) (stream' : StreamId) :
    (m.record ref recording).get? other stream' =
      if t = other ∧ stream = stream' then (m.get? t stream).map (·.recorded recording)
      else m.get? other stream' := by
  rw [get?, ref?_record]
  by_cases hsame : t = other ∧ stream = stream'
  · rw [if_pos hsame, ← hsame.1, ← hsame.2, get?, href, Option.bind_some, Option.bind_some,
      read?_record, if_pos rfl]
  · rw [if_neg hsame, get?]
    refine Option.bind_congr fun place hplace => ?_
    rw [read?_record, if_neg]
    rintro rfl
    exact hsame (h.injective href hplace)

/-! ## Snapshots -/

theorem mem_rows_iff (m : StatsStore) (t : TableRef) (stream : StreamId) (c : Counters) :
    (stream, c) ∈ m.rows t ↔ m.get? t stream = some c := by
  unfold rows get? ref?
  cases m.tables[t.place]? with
  | none => simp
  | some refs =>
    have hmem : ∀ row : StreamId × CountersRef, row ∈ refs.toList ↔ refs[row.1]? = some row.2 :=
      fun row => Std.TreeMap.mem_toList_iff_getElem?_eq_some
    rw [Option.elim_some, List.mem_filterMap, Option.bind_some, Option.bind_eq_some_iff]
    constructor
    · rintro ⟨row, hrow, hc⟩
      obtain ⟨c', hread, heq⟩ := Option.map_eq_some_iff.1 hc
      obtain ⟨rfl, rfl⟩ := Prod.mk.inj heq
      exact ⟨row.2, (hmem row).1 hrow, hread⟩
    · rintro ⟨ref, href, hread⟩
      exact ⟨(stream, ref), (hmem _).2 href, congrArg (Option.map _) hread⟩

/-- Rows of streams one after the other in their order. -/
def Ascending (rows : List (StreamId × Counters)) : Prop :=
  rows.Pairwise fun a b => a.1.IsBefore b.1

theorem ascending_rows (m : StatsStore) (t : TableRef) : Ascending (m.rows t) := by
  unfold rows Ascending
  cases m.tables[t.place]? with
  | none => exact List.Pairwise.nil
  | some refs =>
    rw [List.pairwise_filterMap]
    refine (Std.TreeMap.ordered_keys_toList (t := refs)).imp ?_
    intro a b hlt row hrow row' hrow'
    obtain ⟨c, -, rfl⟩ := Option.map_eq_some_iff.1 hrow
    obtain ⟨c', -, rfl⟩ := Option.map_eq_some_iff.1 hrow'
    exact (StreamId.compare_eq_lt_iff _ _).1 hlt

/-- Ascending rows are determined by which rows there are. -/
theorem Ascending.ext {rows rows' : List (StreamId × Counters)} (h : Ascending rows)
    (h' : Ascending rows') (hmem : ∀ row, row ∈ rows ↔ row ∈ rows') : rows = rows' := by
  have hasymm : ∀ a b : StreamId, a.IsBefore b → ¬ b.IsBefore a := by
    intro a b hab hba
    rw [← StreamId.compare_eq_lt_iff] at hab hba
    rw [Std.OrientedOrd.eq_swap, hba] at hab
    cases hab
  have hnodup : ∀ {all : List (StreamId × Counters)}, Ascending all → all.Nodup := by
    refine fun hall => hall.imp ?_
    rintro a _ hbefore rfl
    exact hasymm _ _ hbefore hbefore
  have hperm : rows.Perm rows' :=
    (List.perm_ext_iff_of_nodup (hnodup h) (hnodup h')).2 fun row => hmem row
  exact hperm.eq_of_pairwise (fun a b _ _ hab hba => absurd hba (hasymm _ _ hab)) h h'

/-- The rows of a table are sorted, in whichever order they were found. -/
theorem inOrder_eq_rows {rows : List (StreamId × Counters)} (hperm : rows.Perm (m.rows t)) :
    inOrder rows = m.rows t := by
  have hsorted : (inOrder rows).Pairwise fun a b => (compare a.1 b.1).isLE := by
    refine List.pairwise_mergeSort ?_ ?_ rows
    · intro a b c hab hbc
      exact Std.TransOrd.isLE_trans hab hbc
    · intro a b
      rw [Std.OrientedOrd.eq_swap (a := b.1) (b := a.1)]
      cases compare a.1 b.1 <;> rfl
  have hrows : (m.rows t).Pairwise fun a b => (compare a.1 b.1).isLE := by
    refine (m.ascending_rows t).imp fun hbefore => ?_
    rw [(StreamId.compare_eq_lt_iff _ _).2 hbefore]
    rfl
  have hsame : (inOrder rows).Perm (m.rows t) := (List.mergeSort_perm rows _).trans hperm
  refine hsame.eq_of_pairwise ?_ hsorted hrows
  -- two rows of one stream are the same row
  rintro ⟨stream, c⟩ ⟨stream', c'⟩ hc hc' hle hge
  obtain rfl : stream = stream' :=
    Std.LawfulEqOrd.eq_of_compare (Std.OrientedCmp.isLE_antisymm hle hge)
  have hget := (m.mem_rows_iff t stream c).1 (hsame.mem_iff.1 hc)
  rw [(m.mem_rows_iff t stream c').1 hc'] at hget
  rw [Option.some.inj hget]

theorem snapshotAll_eq_rows (m : StatsStore) (t : TableRef) : m.snapshotAll t = m.rows t :=
  inOrder_eq_rows (List.Perm.refl _)

/-! ## One table -/

/-- A table of a store shows of every stream what a `StatsTable` does. -/
def Shows (m : StatsStore) (t : TableRef) (table : StatsTable) : Prop :=
  ∀ stream, m.get? t stream = table.get? stream

namespace Shows

variable {table : StatsTable}

/-- A store without tables shows nothing, wherever one looks. -/
theorem empty (t : TableRef) : StatsStore.empty.Shows t .empty := by
  intro stream
  simp [StatsStore.empty, get?, ref?, StatsTable.empty, StatsTable.get?]

theorem addTable (hshows : m.Shows t table) : m.addTable.2.Shows t table := by
  intro stream
  rw [get?_addTable, hshows stream]

/-- A stream is touched in its own table and in no other one. -/
theorem track (hshows : m.Shows other table) (h : m.WellFormed) (ht : m.HasTable t)
    (stream : StreamId) :
    (m.track t stream).2.1.Shows other (if t = other then (table.track stream).1 else table) := by
  intro stream'
  rw [h.get?_track ht]
  by_cases hsame : t = other
  · subst hsame
    rw [if_pos rfl, StatsTable.get?_track, StatsTable.countersOf, hshows stream, hshows stream']
    simp
  · rw [if_neg hsame, if_neg fun hboth => hsame hboth.1]
    exact hshows stream'

/-- A stream is new to a table of a store exactly if it is new to the `StatsTable`. -/
theorem notices_track (hshows : m.Shows t table) (h : m.WellFormed) (stream : StreamId) :
    (m.track t stream).2.2 = (table.track stream).2 := by
  cases href : m.ref? t stream with
  | some ref =>
    obtain ⟨c, -, hget⟩ := h.get?_eq_some href
    rw [StatsTable.track_of_get? ((hshows stream).symm.trans hget)]
    simp [StatsStore.track, href]
  | none =>
    have hget : m.get? t stream = none := by rw [get?, href, Option.bind_none]
    rw [StatsTable.track_of_get?_none ((hshows stream).symm.trans hget)]
    simp [StatsStore.track, href]

/-- A recording through a reference is the change of the stream whose counters it reaches. -/
theorem record (hshows : m.Shows other table) (h : m.WellFormed)
    (href : m.ref? t stream = some ref) (recording : Recording) :
    (m.record ref recording).Shows other
      (if t = other then (table.record stream (·.recorded recording)).1 else table) := by
  intro stream'
  obtain ⟨c, -, hget⟩ := h.get?_eq_some href
  rw [h.get?_record href]
  by_cases hsame : t = other
  · subst hsame
    rw [if_pos rfl, StatsTable.get?_record, hshows stream', hget, (hshows stream).symm.trans hget]
    simp
  · rw [if_neg hsame, if_neg fun hboth => hsame hboth.1]
    exact hshows stream'

/-- The rows of a table are those of the `StatsTable`. -/
theorem rows_eq (hshows : m.Shows t table) : m.rows t = table.toList := by
  have htable : Ascending table.toList :=
    (Std.TreeMap.ordered_keys_toList (t := table.streams)).imp fun hlt =>
      (StreamId.compare_eq_lt_iff _ _).1 hlt
  refine (m.ascending_rows t).ext htable ?_
  rintro ⟨stream, c⟩
  rw [mem_rows_iff, hshows stream]
  exact (Std.TreeMap.mem_toList_iff_getElem?_eq_some (t := table.streams)).symm

theorem snapshotAll_eq (hshows : m.Shows t table) : m.snapshotAll t = table.toList :=
  (snapshotAll_eq_rows m t).trans hshows.rows_eq

theorem total_eq (hshows : m.Shows t table) (mode : OverflowMode) :
    m.total mode t = table.total mode := by
  rw [total, hshows.rows_eq, StatsTable.total]

theorem summary_eq (hshows : m.Shows t table) : m.summary t = table.summary := by
  rw [summary, hshows.snapshotAll_eq, StatsTable.summary]

end Shows

end StatsStore

end DepthFeed

import DepthFeed.Proofs.Stats.Recordings
import DepthFeed.Proofs.Stats.Store

/-!
# Statistics that are shared

References to tables and to counters are copied, kept and used in any order. What a table shows
depends on none of that, but only on what was recorded of each of its streams, which a diary tells
that is kept from the operations alone.

* `StatsStore.Session`: a store with all references that were obtained from it.
* `StatsStore.Diary`: whose references they are, and what was touched and recorded.
* `StatsStore.Session.Follows`: a session that is as its diary says, kept by `Follows.perform`.
* `StatsStore.Session.run_presents`: what every table shows of every stream after a run.
-/

namespace DepthFeed.StatsStore

/-! ## Sessions -/

/-- A store with the references to its tables and counters that were obtained so far. -/
structure Session where
  store : StatsStore
  tables : List TableRef
  refs : List CountersRef

namespace Session

/-- An operation names a reference by how many were obtained before it. -/
inductive Operation where
  /-- One more table, to which a reference is obtained. -/
  | addTable
  /-- One more reference to the table of a reference. -/
  | copy (table : Nat)
  /-- A reference to the counters of a stream, which are made if there are none. -/
  | hold (table : Nat) (stream : StreamId)
  /-- A recording through a reference to counters. -/
  | record (ref : Nat) (recording : Recording)
  /-- A reconnect of a stream by its name. -/
  | reconnect (table : Nat) (stream : StreamId)
deriving DecidableEq, Repr

def empty : Session := ⟨.empty, [], []⟩

/-- The session after an operation; naming a reference that was not obtained does nothing. -/
def perform (s : Session) : Operation → Session
  | .addTable =>
    { s with store := s.store.addTable.2, tables := s.tables ++ [s.store.addTable.1] }
  | .copy table => { s with tables := s.tables ++ s.tables[table]?.toList }
  | .hold table stream =>
    match s.tables[table]? with
    | none => s
    | some t =>
      { s with
        store := (s.store.track t stream).2.1
        refs := s.refs ++ [(s.store.track t stream).1] }
  | .record ref recording =>
    match s.refs[ref]? with
    | none => s
    | some ref => { s with store := s.store.record ref recording }
  | .reconnect table stream =>
    match s.tables[table]? with
    | none => s
    | some t => { s with store := (s.store.countReconnect t stream).1 }

/-- The session after some operations, which begins with nothing. -/
def run (operations : List Operation) : Session := operations.foldl perform empty

end Session

/-! ## Diaries -/

/-- A stream of a table, where the tables are numbered in their order of creation. -/
structure Subject where
  table : Nat
  stream : StreamId
deriving DecidableEq, Repr

/-- What some operations say without any store. -/
structure Diary where
  /-- How many tables there are. -/
  tables : Nat
  /-- The table of each reference to a table. -/
  owners : List Nat
  /-- The stream of each reference to counters. -/
  subjects : List Subject
  /-- What was touched, with what was recorded of it. -/
  entries : List (Subject × Option Recording)

namespace Diary

def empty : Diary := ⟨0, [], [], []⟩

def note (d : Diary) (subject : Subject) (recording : Option Recording) : Diary :=
  { d with entries := d.entries ++ [(subject, recording)] }

def write (d : Diary) : Session.Operation → Diary
  | .addTable => { d with tables := d.tables + 1, owners := d.owners ++ [d.tables] }
  | .copy table => { d with owners := d.owners ++ d.owners[table]?.toList }
  | .hold table stream =>
    match d.owners[table]? with
    | none => d
    | some owner =>
      { d.note ⟨owner, stream⟩ none with subjects := d.subjects ++ [⟨owner, stream⟩] }
  | .record ref recording =>
    match d.subjects[ref]? with
    | none => d
    | some subject => d.note subject recording
  | .reconnect table stream =>
    match d.owners[table]? with
    | none => d
    | some owner => (d.note ⟨owner, stream⟩ none).note ⟨owner, stream⟩ (some .reconnect)

/-- The diary of some operations. -/
def of (operations : List Session.Operation) : Diary := operations.foldl write empty

def Touches (d : Diary) (subject : Subject) : Prop := subject ∈ d.entries.map Prod.fst

instance (d : Diary) (subject : Subject) : Decidable (d.Touches subject) :=
  inferInstanceAs (Decidable (subject ∈ d.entries.map Prod.fst))

/-- What was recorded of a stream, through whichever reference. -/
def recordings (d : Diary) (subject : Subject) : List Recording :=
  (d.entries.filter fun entry => entry.1 = subject).filterMap Prod.snd

/-- The entries of the streams of one table. -/
def entriesOf (d : Diary) (table : Nat) : List Entry :=
  (d.entries.filter fun entry => entry.1.table = table).map fun entry =>
    ⟨entry.1.stream, entry.2⟩

theorem touches_iff (d : Diary) (table : Nat) (stream : StreamId) :
    d.Touches ⟨table, stream⟩ ↔ stream ∈ (d.entriesOf table).map Entry.stream := by
  unfold Touches entriesOf
  rw [List.map_map, List.mem_map, List.mem_map]
  constructor
  · rintro ⟨⟨subject, recording⟩, hmem, rfl⟩
    exact ⟨_, List.mem_filter.2 ⟨hmem, by simp⟩, rfl⟩
  · rintro ⟨⟨⟨owner, _⟩, recording⟩, hmem, rfl⟩
    obtain ⟨hentry, howner⟩ := List.mem_filter.1 hmem
    obtain rfl : owner = table := by simpa using howner
    exact ⟨_, hentry, rfl⟩

theorem recordings_eq (d : Diary) (table : Nat) (stream : StreamId) :
    d.recordings ⟨table, stream⟩ = StatsTable.recordingsOf stream (d.entriesOf table) := by
  unfold recordings StatsTable.recordingsOf entriesOf
  rw [List.filter_map, List.filterMap_map, List.filter_filter]
  have hsame : ∀ entry : Subject × Option Recording,
      decide (entry.1 = ⟨table, stream⟩) =
        (decide (entry.1.stream = stream) && decide (entry.1.table = table)) := by
    rintro ⟨⟨owner, other⟩, recording⟩
    simp [Bool.and_comm]
  simp only [hsame]
  rfl

/-- An entry changes its own table and no other one. -/
theorem ofEntries_note (d : Diary) (subject : Subject) (recording : Option Recording)
    (table : Nat) :
    StatsTable.ofEntries ((d.note subject recording).entriesOf table) =
      if subject.table = table then
        (StatsTable.ofEntries (d.entriesOf table)).enter ⟨subject.stream, recording⟩
      else StatsTable.ofEntries (d.entriesOf table) := by
  unfold entriesOf note
  rw [List.filter_append, List.map_append, StatsTable.ofEntries_append]
  by_cases htable : subject.table = table <;> simp [htable]

end Diary

/-! ## Following a diary -/

namespace Session

/-- A session that is as its diary says. -/
structure Follows (s : Session) (d : Diary) : Prop where
  wellFormed : s.store.WellFormed
  size_eq : s.store.tables.size = d.tables
  tables_eq : s.tables = d.owners.map TableRef.mk
  owner_lt : ∀ owner ∈ d.owners, owner < d.tables
  /-- Every reference to counters leads to those of its stream. -/
  refs_eq : s.refs.map some =
    d.subjects.map fun subject => s.store.ref? ⟨subject.table⟩ subject.stream
  shows (table : Nat) : s.store.Shows ⟨table⟩ (StatsTable.ofEntries (d.entriesOf table))

namespace Follows

variable {s : Session} {d : Diary}

theorem empty : Session.empty.Follows .empty where
  wellFormed := .empty
  size_eq := rfl
  tables_eq := rfl
  owner_lt _ hmem := nomatch hmem
  refs_eq := rfl
  shows table := .empty ⟨table⟩

theorem table?_eq (h : s.Follows d) (i : Nat) : s.tables[i]? = d.owners[i]?.map TableRef.mk := by
  rw [h.tables_eq, List.getElem?_map]

theorem hasTable (h : s.Follows d) {i owner : Nat} (howner : d.owners[i]? = some owner) :
    s.store.HasTable ⟨owner⟩ := by
  show owner < s.store.tables.size
  rw [h.size_eq]
  exact h.owner_lt owner (List.mem_of_getElem? howner)

theorem ref?_eq (h : s.Follows d) (i : Nat) :
    s.refs[i]?.map some =
      d.subjects[i]?.map fun subject => s.store.ref? ⟨subject.table⟩ subject.stream := by
  rw [← List.getElem?_map, h.refs_eq, List.getElem?_map]

/-- The references to counters are good in any store where those of their streams are the same. -/
theorem refs_eq_of_same (h : s.Follows d) {store : StatsStore}
    (hsame : ∀ {t : TableRef} {stream : StreamId} {ref : CountersRef},
      s.store.ref? t stream = some ref → store.ref? t stream = some ref) :
    s.refs.map some = d.subjects.map fun subject => store.ref? ⟨subject.table⟩ subject.stream := by
  rw [h.refs_eq]
  refine List.map_congr_left fun subject hsubject => ?_
  have hmem : s.store.ref? ⟨subject.table⟩ subject.stream ∈ s.refs.map some := by
    rw [h.refs_eq]
    exact List.mem_map_of_mem hsubject
  obtain ⟨ref, -, href⟩ := List.mem_map.1 hmem
  rw [← href, hsame href.symm]

theorem addTable (h : s.Follows d) : (s.perform .addTable).Follows (d.write .addTable) where
  wellFormed := h.wellFormed.addTable
  size_eq := by
    show (s.store.tables.push ∅).size = d.tables + 1
    rw [Array.size_push, h.size_eq]
  tables_eq := by
    show s.tables ++ [⟨s.store.tables.size⟩] = (d.owners ++ [d.tables]).map TableRef.mk
    rw [h.tables_eq, h.size_eq, List.map_append]
    rfl
  owner_lt owner hmem := by
    rcases List.mem_append.1 hmem with hearlier | hnew
    · exact Nat.lt_succ_of_lt (h.owner_lt owner hearlier)
    · rw [List.mem_singleton.1 hnew]
      exact Nat.lt_succ_self _
  refs_eq := h.refs_eq_of_same fun href => (ref?_addTable _ _ _).trans href
  shows table := (h.shows table).addTable

theorem copy (h : s.Follows d) (i : Nat) : (s.perform (.copy i)).Follows (d.write (.copy i)) where
  wellFormed := h.wellFormed
  size_eq := h.size_eq
  tables_eq := by
    show s.tables ++ s.tables[i]?.toList = (d.owners ++ d.owners[i]?.toList).map TableRef.mk
    rw [h.table?_eq, h.tables_eq, List.map_append, Option.toList_map]
  owner_lt owner hmem := by
    rcases List.mem_append.1 hmem with hearlier | hnew
    · exact h.owner_lt owner hearlier
    · exact h.owner_lt owner (List.mem_of_getElem? (Option.mem_toList.1 hnew))
  refs_eq := h.refs_eq
  shows := h.shows

/-- A stream that is touched gets its counters, and the references stay good. -/
theorem track (h : s.Follows d) {i owner : Nat} (howner : d.owners[i]? = some owner)
    (stream : StreamId) :
    Follows { s with store := (s.store.track ⟨owner⟩ stream).2.1 }
      (d.note ⟨owner, stream⟩ none) where
  wellFormed := h.wellFormed.track (h.hasTable howner) stream
  size_eq := (size_tables_track _ _ _).trans h.size_eq
  tables_eq := h.tables_eq
  owner_lt := h.owner_lt
  refs_eq := h.refs_eq_of_same fun href =>
    ref?_track_of_some (h.hasTable howner) stream href
  shows table := by
    rw [Diary.ofEntries_note]
    simpa only [TableRef.mk.injEq, StatsTable.enter] using
      (h.shows table).track h.wellFormed (h.hasTable howner) stream

/-- A recording through a reference is one of the stream that the reference is of. -/
theorem record (h : s.Follows d) {subject : Subject} {ref : CountersRef}
    (href : s.store.ref? ⟨subject.table⟩ subject.stream = some ref) (recording : Recording) :
    Follows { s with store := s.store.record ref recording } (d.note subject recording) where
  wellFormed := h.wellFormed.record ref recording
  size_eq := h.size_eq
  tables_eq := h.tables_eq
  owner_lt := h.owner_lt
  refs_eq := h.refs_eq
  shows table := by
    rw [Diary.ofEntries_note]
    simpa only [TableRef.mk.injEq, StatsTable.enter] using
      (h.shows table).record h.wellFormed href recording

theorem addRef (h : s.Follows d) {subject : Subject} {ref : CountersRef}
    (href : s.store.ref? ⟨subject.table⟩ subject.stream = some ref) :
    Follows { s with refs := s.refs ++ [ref] } { d with subjects := d.subjects ++ [subject] } where
  wellFormed := h.wellFormed
  size_eq := h.size_eq
  tables_eq := h.tables_eq
  owner_lt := h.owner_lt
  refs_eq := by
    rw [List.map_append, List.map_append, h.refs_eq, List.map_singleton, List.map_singleton, href]
  shows := h.shows

theorem hold (h : s.Follows d) (i : Nat) (stream : StreamId) :
    (s.perform (.hold i stream)).Follows (d.write (.hold i stream)) := by
  simp only [Session.perform, Diary.write]
  rw [h.table?_eq]
  cases howner : d.owners[i]? with
  | none => exact h
  | some owner =>
    exact (h.track howner stream).addRef (ref?_track_self (h.hasTable howner) stream)

theorem reconnect (h : s.Follows d) (i : Nat) (stream : StreamId) :
    (s.perform (.reconnect i stream)).Follows (d.write (.reconnect i stream)) := by
  simp only [Session.perform, Diary.write]
  rw [h.table?_eq]
  cases howner : d.owners[i]? with
  | none => exact h
  | some owner =>
    exact (h.track howner stream).record (ref?_track_self (h.hasTable howner) stream) .reconnect

/-- A session follows its diary from one operation to the next. -/
theorem perform (h : s.Follows d) (operation : Operation) :
    (s.perform operation).Follows (d.write operation) := by
  cases operation with
  | addTable => exact h.addTable
  | copy table => exact h.copy table
  | hold table stream => exact h.hold table stream
  | reconnect table stream => exact h.reconnect table stream
  | record i recording =>
    simp only [Session.perform, Diary.write]
    have href := h.ref?_eq i
    cases hsubject : d.subjects[i]? with
    | none =>
      rw [hsubject, Option.map_none, Option.map_eq_none_iff] at href
      rw [href]
      exact h
    | some subject =>
      rw [hsubject, Option.map_some] at href
      obtain ⟨ref, hget, hsame⟩ := Option.map_eq_some_iff.1 href
      rw [hget]
      exact h.record hsame.symm recording

theorem run (operations : List Operation) : (Session.run operations).Follows (.of operations) := by
  induction operations using List.reverseRecOn with
  | nil => exact empty
  | append_singleton operations last ih =>
    rw [Session.run, Diary.of, List.foldl_append, List.foldl_append]
    exact ih.perform last

end Follows

/-! ## What is shown -/

/-- What a reference to a table shows, where a diary tells what became of the streams. -/
structure Presents (m : StatsStore) (t : TableRef) (d : Diary) (owner : Nat) : Prop where
  /-- Nothing is shown of a stream that was never touched. -/
  untouched (stream : StreamId) : m.get? t stream = none ↔ ¬ d.Touches ⟨owner, stream⟩
  /-- All that was recorded of a stream is shown, and nothing else. -/
  tells (stream : StreamId) (c : Counters) :
    m.get? t stream = some c → c.Tells (d.recordings ⟨owner, stream⟩)
  /-- The counts are exact unless more was recorded than a word can count. -/
  counts (stream : StreamId) (c : Counters) :
    m.get? t stream = some c → (d.recordings ⟨owner, stream⟩).length < 2 ^ 64 →
      c.messages.toNat = (Recording.latencies (d.recordings ⟨owner, stream⟩)).length ∧
        c.samples.toNat = (Recording.latencies (d.recordings ⟨owner, stream⟩)).length ∧
        c.gaps.toNat = (Recording.missings (d.recordings ⟨owner, stream⟩)).length ∧
        c.reconnects.toNat = Recording.reconnects (d.recordings ⟨owner, stream⟩)
  /-- A snapshot lists every stream at most once, in the order of the streams. -/
  ascending : Ascending (m.snapshotAll t)
  /-- A snapshot lists the streams that are shown, with the same counters. -/
  listed (stream : StreamId) (c : Counters) :
    (stream, c) ∈ m.snapshotAll t ↔ m.get? t stream = some c
  /-- A snapshot does not depend on the order in which the streams are found. -/
  sorted (rows : List (StreamId × Counters)) :
    rows.Perm (m.rows t) → inOrder rows = m.snapshotAll t

theorem Follows.presents {s : Session} {d : Diary} (h : s.Follows d) (owner : Nat) :
    Presents s.store ⟨owner⟩ d owner := by
  have hget : ∀ stream, s.store.get? ⟨owner⟩ stream =
      if d.Touches ⟨owner, stream⟩ then
        some ((d.recordings ⟨owner, stream⟩).foldl Counters.recorded .zero)
      else none := by
    intro stream
    rw [h.shows owner stream, StatsTable.get?_ofEntries, d.recordings_eq]
    simp only [d.touches_iff]
  have htells : ∀ stream c, s.store.get? ⟨owner⟩ stream = some c →
      c.Tells (d.recordings ⟨owner, stream⟩) := by
    intro stream c hc
    rw [hget] at hc
    split at hc
    · obtain rfl := Option.some.inj hc
      exact .foldl_recorded _
    · cases hc
  refine ⟨?_, htells, ?_, ?_, ?_, ?_⟩
  · intro stream
    rw [hget]
    split
    · rename_i htouched
      simp [htouched]
    · rename_i huntouched
      simp [huntouched]
  · intro stream c hc hfew
    exact (htells stream c hc).counts_eq hfew
  · rw [snapshotAll_eq_rows]
    exact ascending_rows _ _
  · intro stream c
    rw [snapshotAll_eq_rows]
    exact mem_rows_iff _ _ _ _
  · intro rows hperm
    rw [snapshotAll_eq_rows]
    exact inOrder_eq_rows hperm

/-- Whichever references were obtained and used, and in whichever order: every reference to a table
shows what was recorded of the streams of its table, through itself and through all others. -/
theorem run_presents (operations : List Operation) {i : Nat} {t : TableRef}
    (ht : (run operations).tables[i]? = some t) :
    ∃ owner, (Diary.of operations).owners[i]? = some owner ∧
      Presents (run operations).store t (.of operations) owner := by
  have hfollows := Follows.run operations
  rw [hfollows.table?_eq, Option.map_eq_some_iff] at ht
  obtain ⟨owner, howner, rfl⟩ := ht
  exact ⟨owner, howner, hfollows.presents owner⟩

/-- A copy shows what was recorded through a reference that was obtained through the original, and
the other way around; the sum wraps around and the largest latency does not. -/
theorem run_presents_copy :
    let btc : StreamId := ⟨⟨1⟩, ⟨7⟩⟩
    let eth : StreamId := ⟨⟨1⟩, ⟨3⟩⟩
    let operations : List Operation :=
      [.addTable, .copy 0, .hold 0 btc, .record 0 (.message 5), .reconnect 1 eth, .hold 1 btc,
        .record 1 (.message (-9)), .record 0 (.gap 0xFFFF_FFFF_FFFF_FFFF), .record 1 (.gap 3),
        .addTable, .hold 2 eth, .record 2 (.message 8)]
    (run operations).tables[1]? = some ⟨0⟩ ∧
      (∃ owner, (Diary.of operations).owners[1]? = some owner ∧
        Presents (run operations).store ⟨0⟩ (.of operations) owner) ∧
      (run operations).store.snapshotAll ⟨0⟩ =
        [(eth, { Counters.zero with reconnects := 1 }),
          (btc,
            { Counters.zero with
              messages := 2, samples := 2, latencySum := 5, worstLatency := 5
              gaps := 2, missing := 2 })] := by
  intro btc eth operations
  have ht : (run operations).tables[1]? = some ⟨0⟩ := by decide
  refine ⟨ht, run_presents operations ht, ?_⟩
  rw [snapshotAll_eq_rows]
  decide

end Session

end DepthFeed.StatsStore

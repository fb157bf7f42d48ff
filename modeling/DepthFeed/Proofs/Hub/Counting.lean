import DepthFeed.Proofs.Hub.Actions
import DepthFeed.Proofs.Stats.Recordings
import DepthFeed.Proofs.Stats.Store
import DepthFeed.Stats.Keeper

/-!
# Where a hub counts

A hub that keeps the references to its counters at hand, and one that looks for the counters at
every event, count alike. A stream never gets other counters than its first ones, so the reference
that is kept is the one that the table has, whoever made the counters and whoever else counts with
them.

* `StatsKeeper.Keeps`: a keeper whose table shows what a `StatsTable` does, and whose references are
  those of the table.
* `StatsKeeper.Keeps.hold`: a reference is that of the table, whether it was kept or is asked for.
* `Hub.Action.entries`, `Hub.stats_act`: what an action enters into the counters of a hub.
* `Hub.reflects_actAll`: after any actions, those who look into the table of a keeper see the
  counters of the hub.
-/

namespace DepthFeed

/-- What an event of a stream enters into the counters, and the missing numbers of its gap. -/
def Entry.ofEvent (stream : StreamId) (latency : Int64) (missing : Option UInt64) : List Entry :=
  ⟨stream, some (.message latency)⟩ ::
    (missing.map fun missing => ⟨stream, some (.gap missing)⟩).toList

/-! ## Keepers -/

namespace StatsKeeper

/-- A keeper whose table shows what `table` does, and whose references are those of its table. -/
structure Keeps (k : StatsKeeper) (table : StatsTable) : Prop where
  wellFormed : k.store.WellFormed
  hasTable : k.store.HasTable k.table
  shows : k.store.Shows k.table table
  kept {stream : StreamId} {ref : CountersRef} :
    k.kept[stream]? = some ref → k.store.ref? k.table stream = some ref

namespace Keeps

variable {k : StatsKeeper} {table : StatsTable} {stream : StreamId} {ref : CountersRef}

theorem create : StatsKeeper.create.Keeps .empty where
  wellFormed := .addTable .empty
  hasTable := Nat.zero_lt_one
  shows := .addTable (.empty _)
  kept h := by simp [StatsKeeper.create] at h

/-- Only what a table shows of each stream is kept. -/
theorem congr (h : k.Keeps table) {other : StatsTable}
    (hsame : ∀ stream, table.get? stream = other.get? stream) : k.Keeps other :=
  { h with shows := fun stream => (h.shows stream).trans (hsame stream) }

/-- A stream that is touched in the table keeps its reference, if it had one. -/
theorem track (h : k.Keeps table) (stream : StreamId) :
    (k.track stream).1.Keeps (table.track stream).1 ∧
      (k.track stream).2 = (table.track stream).2 := by
  refine ⟨⟨h.wellFormed.track h.hasTable stream, ?_, ?_, ?_⟩, h.shows.notices_track h.wellFormed _⟩
  · exact h.hasTable.trans_eq (StatsStore.size_tables_track _ _ _).symm
  · have hshows := h.shows.track h.wellFormed h.hasTable stream
    rwa [if_pos rfl] at hshows
  · exact fun hkept => StatsStore.ref?_track_of_some h.hasTable stream (h.kept hkept)

/-- The reference that is kept, or else asked for, is that of the table. -/
theorem hold (h : k.Keeps table) (stream : StreamId) :
    (k.hold stream).2.1.Keeps (table.track stream).1 ∧
      (k.hold stream).2.1.store.ref? (k.hold stream).2.1.table stream = some (k.hold stream).1 ∧
      (k.hold stream).2.2 = (table.track stream).2 := by
  unfold StatsKeeper.hold
  cases hkept : k.kept[stream]? with
  | some ref =>
    have href := h.kept hkept
    obtain ⟨c, -, hget⟩ := h.wellFormed.get?_eq_some href
    rw [StatsTable.track_of_get? ((h.shows stream).symm.trans hget)]
    exact ⟨h, href, rfl⟩
  | none =>
    obtain ⟨htracked, hnotices⟩ := h.track stream
    have href := StatsStore.ref?_track_self h.hasTable stream
    refine ⟨{ htracked with kept := ?_ }, href, hnotices⟩
    intro other ref hother
    dsimp only at hother
    rw [Std.TreeMap.getElem?_insert] at hother
    split at hother
    · rename_i hsame
      obtain rfl := Std.LawfulEqOrd.eq_of_compare hsame
      obtain rfl := Option.some.inj hother
      exact href
    · exact htracked.kept hother

theorem record (h : k.Keeps table)
    (href : k.store.ref? k.table stream = some ref) (recording : Recording) :
    (k.record ref recording).Keeps (table.enter ⟨stream, some recording⟩) where
  wellFormed := h.wellFormed.record ref recording
  hasTable := h.hasTable
  shows := by
    have hshows := h.shows.record h.wellFormed href recording
    rwa [if_pos rfl] at hshows
  kept := h.kept

/-- To touch a stream before something is recorded of it makes no difference. -/
theorem record_of_track (h : k.Keeps (table.track stream).1)
    (href : k.store.ref? k.table stream = some ref) (recording : Recording) :
    (k.record ref recording).Keeps (table.enter ⟨stream, some recording⟩) := by
  refine (h.record href recording).congr fun other => ?_
  simp only [StatsTable.enter, StatsTable.get?_record, StatsTable.get?_track]
  split <;> rfl

/-- An event and its gap are counted through one reference as they would be by name. -/
theorem countEvent (h : k.Keeps table) (stream : StreamId) (latency : Int64)
    (missing : Option UInt64) :
    (k.countEvent stream latency missing).1.Keeps
        ((Entry.ofEvent stream latency missing).foldl StatsTable.enter table) ∧
      (k.countEvent stream latency missing).2 = (table.track stream).2 := by
  obtain ⟨hheld, href, hnotices⟩ := h.hold stream
  have hmessage := hheld.record_of_track href (.message latency)
  cases missing with
  | none => exact ⟨hmessage, hnotices⟩
  | some missing => exact ⟨hmessage.record href (.gap missing), hnotices⟩

/-- A reconnect is counted through the table, and touches the stream. -/
theorem countReconnect (h : k.Keeps table) (stream : StreamId) :
    (k.countReconnect stream).1.Keeps (table.enter ⟨stream, some .reconnect⟩) :=
  (h.track stream).1.record_of_track (StatsStore.ref?_track_self h.hasTable stream) .reconnect

end Keeps

/-- What those who look into the table of a keeper see, if they see the counters of `table`. -/
structure Reflects (k : StatsKeeper) (table : StatsTable) : Prop where
  get?_eq (stream : StreamId) : k.store.get? k.table stream = table.get? stream
  snapshotAll_eq : k.store.snapshotAll k.table = table.toList
  total_eq (mode : OverflowMode) : k.store.total mode k.table = table.total mode
  summary_eq : k.store.summary k.table = table.summary
  /-- A reference that is kept is the one that the table has. -/
  kept_eq (stream : StreamId) (ref : CountersRef) :
    k.kept[stream]? = some ref → k.store.ref? k.table stream = some ref
  /-- The next event of a stream makes the stream known exactly if it was not before. -/
  notices_eq (stream : StreamId) (latency : Int64) (missing : Option UInt64) :
    (k.countEvent stream latency missing).2 = (table.countMessage stream latency).2

theorem Keeps.reflects {k : StatsKeeper} {table : StatsTable} (h : k.Keeps table) :
    k.Reflects table where
  get?_eq := h.shows
  snapshotAll_eq := h.shows.snapshotAll_eq
  total_eq := h.shows.total_eq
  summary_eq := h.shows.summary_eq
  kept_eq _ _ := h.kept
  notices_eq stream latency missing := (h.countEvent stream latency missing).2

end StatsKeeper

/-! ## Hubs -/

namespace Hub

variable {C : Type}

/-- What an action enters into the counters if `reply` comes of it. -/
def Action.entries : Action C → Reply C → List Entry
  | .operate (.dispatch now e), reply =>
    Entry.ofEvent e.stream (latency now e) (reply.gap?.map Gap.missing)
  | .track stream, _ => [⟨stream, none⟩]
  | .countReconnect stream, _ => [⟨stream, some .reconnect⟩]
  | _, _ => []

variable [Consumer C]

/-- A dispatch enters its event into the counters, and the gap that it reports. -/
theorem stats_dispatch (mode : OverflowMode) (hub : Hub C) (now : Int64) (e : Event) :
    (hub.act mode (.operate (.dispatch now e))).2.stats =
      (Action.entries (.operate (.dispatch now e))
        (hub.act mode (.operate (.dispatch now e))).1).foldl StatsTable.enter hub.stats := by
  cases hreport : (hub.dispatch mode now e).report with
  | error fault =>
    simp only [act, performIn, hreport, dispatch_of_error hreport]
    rfl
  | ok report =>
    have hsilent := dispatch_of_ok hreport
    obtain ⟨report', hreport', hdispatches⟩ := hub.dispatches now e
    rw [hsilent, hreport'] at hreport
    obtain rfl := Except.ok.inj hreport
    simp only [act, performIn, hsilent, hreport']
    rcases hdispatches.gap_cases with ⟨hgap, -, -, hstats, -⟩ | ⟨gap, hgap, -, -, -, hstats, -⟩
    · simp only [hstats, Action.entries, Reply.gap?, hgap]
      rfl
    · simp only [hstats, Action.entries, Reply.gap?, hgap]
      rfl

theorem stats_act (mode : OverflowMode) (hub : Hub C) (action : Action C) :
    (hub.act mode action).2.stats =
      (action.entries (hub.act mode action).1).foldl StatsTable.enter hub.stats := by
  cases action with
  | operate operation =>
    cases operation with
    | dispatch now e => exact stats_dispatch mode hub now e
    | subscribe consumer interest => rfl
    | unsubscribe id =>
      simp only [act, performIn, perform, unsubscribe]
      split <;> rfl
    | forget stream => rfl
  | track stream => rfl
  | countReconnect stream => rfl
  | addReceiver => rfl
  | removeReceiver =>
    simp only [act, removeAlertReceiver]
    split <;> rfl
  | takeAlert => rfl

end Hub

namespace StatsKeeper

variable {C : Type} {k : StatsKeeper} {table : StatsTable}

/-- A keeper after an action on its hub of which `reply` came. -/
def act (k : StatsKeeper) : Hub.Action C → Hub.Reply C → StatsKeeper
  | .operate (.dispatch now e), reply =>
    (k.countEvent e.stream (Hub.latency now e) (reply.gap?.map Gap.missing)).1
  | .track stream, _ => (k.track stream).1
  | .countReconnect stream, _ => (k.countReconnect stream).1
  | _, _ => k

theorem Keeps.act (h : k.Keeps table) (action : Hub.Action C) (reply : Hub.Reply C) :
    (k.act action reply).Keeps ((action.entries reply).foldl StatsTable.enter table) := by
  cases action with
  | operate operation =>
    cases operation with
    | dispatch now e => exact (h.countEvent _ _ _).1
    | subscribe consumer interest => exact h
    | unsubscribe id => exact h
    | forget stream => exact h
  | track stream => exact (h.track stream).1
  | countReconnect stream => exact h.countReconnect stream
  | addReceiver => exact h
  | removeReceiver => exact h
  | takeAlert => exact h

/-- A keeper after some actions on its hub, each with its reply. -/
def actAll (k : StatsKeeper) (actions : List (Hub.Action C)) (replies : List (Hub.Reply C)) :
    StatsKeeper :=
  (actions.zip replies).foldl (fun k (action, reply) => k.act action reply) k

end StatsKeeper

namespace Hub

variable {C : Type} [Consumer C] {capacity : Nat} {hub : Hub C} {notices : List Notice}

theorem keeps_actAll (hcreate : create capacity = .ok (hub, notices)) (mode : OverflowMode)
    (actions : List (Action C)) :
    (StatsKeeper.create.actAll actions (hub.actAll mode actions).1).Keeps
      (hub.actAll mode actions).2.stats := by
  induction actions using List.reverseRecOn with
  | nil =>
    obtain rfl := create_eq_ok hcreate
    exact .create
  | append_singleton actions last ih =>
    have hlength : actions.length = (hub.actAll mode actions).1.length :=
      (length_runWith hub actions).symm
    rw [actAll_append_singleton, stats_act, StatsKeeper.actAll, List.zip_append hlength,
      List.foldl_append]
    exact ih.act last _

/-- Whatever is done to a new hub, and in either mode: a keeper that counts along, through references
that it obtained once, shows the counters of the hub to those who look into its table. -/
theorem reflects_actAll (hcreate : create capacity = .ok (hub, notices)) (mode : OverflowMode)
    (actions : List (Action C)) :
    (StatsKeeper.create.actAll actions (hub.actAll mode actions).1).Reflects
      (hub.actAll mode actions).2.stats :=
  (keeps_actAll hcreate mode actions).reflects

end Hub

end DepthFeed

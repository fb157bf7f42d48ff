import DepthFeed.Proofs.Hub.Balance
import DepthFeed.Proofs.Hub.Topics

/-!
# Notices that agree with the counts

A hub leaves notices of what it does, and counts it elsewhere. Whoever reads the notices of a run
finds in them the gaps of the reports, in their order, and as many dropped alerts, failures and
streams as the hub counts.

* `Hub.told`, `Hub.toldAll`: the notices that an action leaves, and those of a run.
* `Hub.IsQuiet`, `Hub.quiet_or`: the actions that say nothing of consumers, gaps and alerts.
* `Hub.filter_gap_told`, `Hub.droppedAlerts_act`, `Hub.filter_newStream_told`,
  `Hub.filter_departure_told`: what they say on each topic.
* `Hub.IsTallied.act`: the tallies of all consumers count what is noted of them.
* `Hub.Recorded`: a hub whose counts are those of its notices, kept by `Hub.Recorded.act`.
-/

namespace DepthFeed

variable {C : Type} [Consumer C]

namespace Hub

/-! ## What an action tells -/

/-- The notices that an action leaves. -/
def told (mode : OverflowMode) (hub : Hub C) : Action C → List Notice
  | .operate (.subscribe consumer interest) => (hub.subscribe consumer interest).2.2
  | .operate (.unsubscribe id) => (hub.unsubscribe id).2.2
  | .operate (.forget stream) => (hub.forget stream).2
  | .operate (.dispatch now e) => (hub.dispatch mode now e).notices
  | .track stream => (hub.stats.track stream).2
  | .countReconnect stream => (hub.countReconnect stream).2
  | .addReceiver => []
  | .removeReceiver => []
  | .takeAlert => []

/-- The notices of a run. -/
def toldAll (mode : OverflowMode) (hub : Hub C) : List (Action C) → List Notice
  | [] => []
  | action :: actions =>
    hub.told mode action ++ (hub.act mode action).2.toldAll mode actions

theorem toldAll_append (mode : OverflowMode) (hub : Hub C) (earlier later : List (Action C)) :
    hub.toldAll mode (earlier ++ later) =
      hub.toldAll mode earlier ++ (hub.actAll mode earlier).2.toldAll mode later := by
  induction earlier generalizing hub with
  | nil => rfl
  | cons action earlier ih =>
    rw [List.cons_append, toldAll, toldAll, ih, List.append_assoc]
    rfl

theorem told_of_not_isFault {mode : OverflowMode} {hub : Hub C} {action : Action C}
    (h : (hub.act mode action).1.isFault = false) : hub.told mode action = hub.told .silent action := by
  rcases action.dispatch_or with ⟨now, e, rfl⟩ | ⟨hevent, -⟩
  · cases hreport : (hub.dispatch mode now e).report with
    | error fault => simp [act, performIn, hreport, Reply.isFault] at h
    | ok report => simp only [told, dispatch_of_ok hreport]
  · cases action with
    | operate operation =>
      cases operation with
      | dispatch now e => cases hevent
      | _ => rfl
    | _ => rfl

theorem toldAll_of_noFault {mode : OverflowMode} {hub : Hub C} {actions : List (Action C)}
    (h : NoFault (hub.actAll mode actions).1) :
    hub.toldAll mode actions = hub.toldAll .silent actions := by
  induction actions using List.reverseRecOn with
  | nil => rfl
  | append_singleton actions last ih =>
    rw [actAll_append_singleton] at h
    obtain ⟨hearlier, hlast⟩ := h.of_append
    have hsame := told_of_not_isFault (hlast _ List.mem_cons_self)
    rw [toldAll_append, toldAll_append, ih hearlier, toldAll, toldAll, hsame,
      actAll_of_noFault hearlier]
    rfl

/-- The notices of a gap, and of an alert that there is no room for. -/
inductive NotesGap (hub next : Hub C) : Option Gap → List Notice → Prop
  | none (hdropped : next.droppedAlerts = hub.droppedAlerts) : NotesGap hub next none []
  | noted {gap : Gap} (hdropped : next.droppedAlerts = hub.droppedAlerts) :
      NotesGap hub next (some gap) [.gapDetected gap]
  | dropped {gap : Gap} (hdropped : next.droppedAlerts = hub.droppedAlerts + 1) :
      NotesGap hub next (some gap) [.gapDetected gap, .alertDropped gap.stream]

omit [Consumer C] in
theorem notesGap_noteGap? (hub : Hub C) (found : Option Gap) :
    NotesGap hub (hub.noteGap? found).1 found (hub.noteGap? found).2 ∧
      (hub.noteGap? found).1.subscriptions = hub.subscriptions := by
  cases found with
  | none => exact ⟨.none rfl, rfl⟩
  | some gap =>
    unfold noteGap? noteGap
    dsimp only
    split
    · exact ⟨.noted rfl, rfl⟩
    · exact ⟨.dropped rfl, rfl⟩
    · exact ⟨.noted rfl, rfl⟩

/-- What a silent dispatch tells, one thing after the other. -/
theorem notices_dispatch (hub : Hub C) (now : Int64) (e : Event) :
    ∃ report noted, (hub.dispatch .silent now e).report = .ok report ∧
      NotesGap hub (hub.dispatch .silent now e).hub report.gap noted ∧
      (hub.dispatch .silent now e).notices =
        (hub.stats.track e.stream).2 ++ noted ++
          hub.subscriptions.flatMap fun s => (s.deliver e).notices := by
  obtain ⟨found, hfound⟩ : ∃ found, (hub.monitor.observe .silent e.stream e.sequence).2 =
      .ok found := by
    rcases hub.monitor.observe_silent_cases e.stream e.sequence with ⟨h, -⟩ | ⟨gap, h, -⟩
    · exact ⟨_, h⟩
    · exact ⟨_, h⟩
  have hnotes := notesGap_noteGap?
    { hub with
      stats := (hub.stats.countMessage e.stream (latency now e)).1
      monitor := (hub.monitor.observe .silent e.stream e.sequence).1 } found
  unfold dispatch
  dsimp only
  rw [hfound]
  dsimp only
  generalize noteGap? _ found = result at hnotes
  obtain ⟨next, noted⟩ := result
  obtain ⟨hnotes, hsubscriptions⟩ := hnotes
  refine ⟨_, noted, rfl, ?_, ?_⟩
  · cases hnotes with
    | none hdropped => exact .none hdropped
    | noted hdropped => exact .noted hdropped
    | dropped hdropped => exact .dropped hdropped
  · rw [deliverAll]
    dsimp only
    rw [hsubscriptions, List.flatMap_map]
    rfl

omit [Consumer C] in
/-- A stream is noted when it gets its counters. -/
theorem snd_track (t : StatsTable) (stream : StreamId) :
    (t.track stream).2 = if (t.get? stream).isSome then [] else [.streamTracked stream] := by
  have hcontains : t.streams.contains stream = (t.get? stream).isSome :=
    Std.TreeMap.contains_eq_isSome_getElem?
  unfold StatsTable.track
  rw [hcontains]
  split <;> rfl

/-- What the deliveries of an event say on a topic of their own. -/
theorem countP_flatMap_deliver {e : Event} {topic : Notice.Topic} {counts : Subscription C → Bool}
    (hone : ∀ s : Subscription C,
      (s.deliver e).notices.countP (·.isOn topic) = if counts s then 1 else 0)
    (subscriptions : List (Subscription C)) :
    (subscriptions.flatMap fun s => (s.deliver e).notices).countP (·.isOn topic) =
      subscriptions.countP counts := by
  induction subscriptions with
  | nil => rfl
  | cons s later ih =>
    rw [List.flatMap_cons, List.countP_append, hone, ih, List.countP_cons, Nat.add_comm]

omit [Consumer C] in
theorem filter_track (t : StatsTable) (stream : StreamId) {topic : Notice.Topic}
    (htopic : topic ≠ .newStream) : (t.track stream).2.filter (·.isOn topic) = [] := by
  rw [snd_track]
  split
  · rfl
  · cases topic <;> first | rfl | exact absurd rfl htopic

omit [Consumer C] in
theorem NotesGap.filter_eq_nil {hub next : Hub C} {gap : Option Gap} {noted : List Notice}
    (h : NotesGap hub next gap noted) {topic : Notice.Topic} (hgap : topic ≠ .gap)
    (hlost : topic ≠ .lostAlert) : noted.filter (·.isOn topic) = [] := by
  cases h <;> cases topic <;> first | rfl | exact absurd rfl hgap | exact absurd rfl hlost

/-! ## Quiet actions -/

/-- The stream that an action touches. -/
def Action.touched? : Action C → Option StreamId
  | .operate (.dispatch _ e) => some e.stream
  | .track stream => some stream
  | .countReconnect stream => some stream
  | _ => none

/-- An action that leaves the consumers and the alerts alone, and tells no more on the topics than
that a stream is new. -/
structure IsQuiet (hub : Hub C) (action : Action C) : Prop where
  gap?_eq : (hub.act .silent action).1.gap? = none
  ended?_eq : (hub.act .silent action).1.ended? = none
  subscriptions_eq : (hub.act .silent action).2.subscriptions = hub.subscriptions
  droppedAlerts_eq : (hub.act .silent action).2.droppedAlerts = hub.droppedAlerts
  filter_told_eq (topic : Notice.Topic) : (hub.told .silent action).filter (·.isOn topic) =
    action.touched?.toList.flatMap fun stream => (hub.stats.track stream).2.filter (·.isOn topic)

/-- All that is said besides is said of those who come, of those who leave and of an event. -/
theorem quiet_or (hub : Hub C) (action : Action C) :
    (∃ consumer interest, action = .operate (.subscribe consumer interest)) ∨
      (∃ id, action = .operate (.unsubscribe id)) ∨
      (∃ now e, action = .operate (.dispatch now e)) ∨ hub.IsQuiet action := by
  cases action with
  | operate operation =>
    cases operation with
    | subscribe consumer interest => exact Or.inl ⟨consumer, interest, rfl⟩
    | unsubscribe id => exact Or.inr (Or.inl ⟨id, rfl⟩)
    | dispatch now e => exact Or.inr (Or.inr (Or.inl ⟨now, e, rfl⟩))
    | forget stream =>
      have htold : ∀ topic, (hub.told .silent (.operate (.forget stream))).filter
          (·.isOn topic) = [] := by
        intro topic
        cases topic <;> rfl
      exact Or.inr (Or.inr (Or.inr ⟨rfl, rfl, rfl, rfl, htold⟩))
  | track stream =>
    exact Or.inr (Or.inr (Or.inr ⟨rfl, rfl, rfl, rfl, fun _ => (List.append_nil _).symm⟩))
  | countReconnect stream =>
    exact Or.inr (Or.inr (Or.inr ⟨rfl, rfl, rfl, rfl, fun _ => (List.append_nil _).symm⟩))
  | addReceiver => exact Or.inr (Or.inr (Or.inr ⟨rfl, rfl, rfl, rfl, fun _ => rfl⟩))
  | removeReceiver =>
    have hsame : (hub.removeAlertReceiver).subscriptions = hub.subscriptions ∧
        (hub.removeAlertReceiver).droppedAlerts = hub.droppedAlerts := by
      unfold removeAlertReceiver
      split <;> exact ⟨rfl, rfl⟩
    exact Or.inr (Or.inr (Or.inr ⟨rfl, rfl, hsame.1, hsame.2, fun _ => rfl⟩))
  | takeAlert => exact Or.inr (Or.inr (Or.inr ⟨rfl, rfl, rfl, rfl, fun _ => rfl⟩))

theorem IsQuiet.filter_told {hub : Hub C} {action : Action C} (h : hub.IsQuiet action)
    {topic : Notice.Topic} (htopic : topic ≠ .newStream) :
    (hub.told .silent action).filter (·.isOn topic) = [] := by
  rw [h.filter_told_eq]
  cases action.touched? with
  | none => rfl
  | some stream =>
    rw [Option.toList_some, List.flatMap_singleton]
    exact filter_track hub.stats stream htopic

/-! ## Topic by topic -/

variable [Consumer.Discreet C] (hub : Hub C) (action : Action C)

/-- What a dispatch says on the topics that are not about consumers. -/
theorem filter_notices_dispatch {hub : Hub C} {now : Int64} {e : Event} {noted : List Notice}
    (hnotices : (hub.dispatch .silent now e).notices =
      (hub.stats.track e.stream).2 ++ noted ++
        hub.subscriptions.flatMap fun s => (s.deliver e).notices)
    {topic : Notice.Topic} (hcrash : topic ≠ .crash) (hrejection : topic ≠ .rejection) :
    (hub.dispatch .silent now e).notices.filter (·.isOn topic) =
      (hub.stats.track e.stream).2.filter (·.isOn topic) ++ noted.filter (·.isOn topic) := by
  have hnone : (hub.subscriptions.flatMap fun s => (s.deliver e).notices).filter (·.isOn topic) =
      [] := by
    rw [List.filter_eq_nil_iff]
    intro n hmem
    obtain ⟨s, -, hn⟩ := List.mem_flatMap.1 hmem
    exact List.filter_eq_nil_iff.1 (s.filter_notices_deliver_eq_nil e hcrash hrejection) n hn
  rw [hnotices, List.filter_append, List.filter_append, hnone, List.append_nil]

/-- The gap of a report is noted. -/
theorem filter_gap_told :
    (hub.told .silent action).filter (·.isOn .gap) =
      (hub.act .silent action).1.gap?.toList.map .gapDetected := by
  rcases hub.quiet_or action with ⟨consumer, interest, rfl⟩ | ⟨id, rfl⟩ | ⟨now, e, rfl⟩ | hquiet
  · rfl
  · simp only [told, Hub.unsubscribe]
    split <;> rfl
  · obtain ⟨report, noted, hreport, hnotes, hnotices⟩ := hub.notices_dispatch now e
    have hgap : (hub.act .silent (.operate (.dispatch now e))).1.gap? = report.gap := by
      simp only [act, performIn, hreport]
      rfl
    rw [hgap, told, filter_notices_dispatch hnotices (by decide) (by decide),
      filter_track _ _ (by decide), List.nil_append]
    generalize report.gap = gap at hnotes
    cases hnotes <;> rfl
  · rw [hquiet.filter_told (by decide), hquiet.gap?_eq]
    rfl

/-- An alert that is dropped is noted, and nothing else is counted as one. -/
theorem droppedAlerts_act :
    (hub.act .silent action).2.droppedAlerts =
      hub.droppedAlerts + .ofNat ((hub.told .silent action).countP (·.isOn .lostAlert)) := by
  rw [List.countP_eq_length_filter]
  rcases hub.quiet_or action with ⟨consumer, interest, rfl⟩ | ⟨id, rfl⟩ | ⟨now, e, rfl⟩ | hquiet
  · exact (UInt64.add_zero _).symm
  · simp only [told, act, performIn, perform, Hub.unsubscribe]
    split <;> exact (UInt64.add_zero _).symm
  · obtain ⟨report, noted, -, hnotes, hnotices⟩ := hub.notices_dispatch now e
    rw [told, filter_notices_dispatch hnotices (by decide) (by decide),
      filter_track _ _ (by decide), List.nil_append]
    show (hub.dispatch .silent now e).hub.droppedAlerts = _
    generalize report.gap = gap at hnotes
    cases hnotes with
    | none hdropped => exact hdropped.trans (UInt64.add_zero _).symm
    | noted hdropped => exact hdropped.trans (UInt64.add_zero _).symm
    | dropped hdropped => exact hdropped
  · rw [hquiet.filter_told (by decide), hquiet.droppedAlerts_eq]
    exact (UInt64.add_zero _).symm

/-- The notice of who leaves, with the last counts of it. -/
def departure (s : Subscription C) : Notice :=
  .consumerLeft (Consumer.name s.consumer) s.id s.tally.delivered s.tally.failures

theorem filter_departure_told :
    (hub.told .silent action).filter (·.isOn .departure) =
      (hub.act .silent action).1.ended?.toList.map departure := by
  rcases hub.quiet_or action with ⟨consumer, interest, rfl⟩ | ⟨id, rfl⟩ | ⟨now, e, rfl⟩ | hquiet
  · rfl
  · simp only [told, act, performIn, perform, Hub.unsubscribe]
    split
    · rfl
    · rename_i s hfound
      have hid : s.id = id := by simpa using List.find?_some hfound
      rw [← hid]
      rfl
  · obtain ⟨report, noted, hreport, hnotes, hnotices⟩ := hub.notices_dispatch now e
    rw [told, filter_notices_dispatch hnotices (by decide) (by decide),
      filter_track _ _ (by decide), hnotes.filter_eq_nil (by decide) (by decide)]
    rfl
  · rw [hquiet.filter_told (by decide), hquiet.ended?_eq]
    rfl

/-- Only the first touch of a stream is noted. -/
theorem filter_newStream_told :
    (hub.told .silent action).filter (·.isOn .newStream) =
      (action.touched?.toList.filter fun stream => (hub.stats.get? stream).isNone).map
        .streamTracked := by
  have htrack : ∀ stream, (hub.stats.track stream).2.filter (·.isOn .newStream) =
      ([stream].filter fun stream => (hub.stats.get? stream).isNone).map .streamTracked := by
    intro stream
    rw [snd_track]
    cases hget : hub.stats.get? stream with
    | none =>
      simp [hget]
      rfl
    | some c => simp [hget]
  rcases hub.quiet_or action with ⟨consumer, interest, rfl⟩ | ⟨id, rfl⟩ | ⟨now, e, rfl⟩ | hquiet
  · rfl
  · simp only [told, Hub.unsubscribe]
    split <;> rfl
  · obtain ⟨report, noted, hreport, hnotes, hnotices⟩ := hub.notices_dispatch now e
    rw [told, filter_notices_dispatch hnotices (by decide) (by decide),
      hnotes.filter_eq_nil (by decide) (by decide), List.append_nil]
    exact htrack e.stream
  · rw [hquiet.filter_told_eq]
    cases action.touched? with
    | none => rfl
    | some stream =>
      rw [Option.toList_some, List.flatMap_singleton]
      exact htrack stream

omit [Consumer.Discreet C] in
/-- A stream has counters from its first touch on. -/
theorem isSome_get?_act (stream : StreamId) :
    (((hub.act .silent action).2.stats.get? stream).isSome ↔
      (hub.stats.get? stream).isSome ∨ action.touched? = some stream) := by
  have hsame : ∀ {t : StatsTable} {touched : StreamId} {c : Counters},
      (∀ other, t.get? other = if touched = other then some c else hub.stats.get? other) →
      ((t.get? stream).isSome ↔ (hub.stats.get? stream).isSome ∨ some touched = some stream) := by
    intro t touched c hget
    rw [hget]
    by_cases heq : touched = stream <;> simp [heq]
  cases action with
  | operate operation =>
    cases operation with
    | subscribe consumer interest => simp [act, performIn, perform, subscribe, Action.touched?]
    | unsubscribe id =>
      simp only [act, performIn, perform, Hub.unsubscribe]
      split <;> simp [Action.touched?]
    | forget stream => simp [act, performIn, perform, forget, Action.touched?]
    | dispatch now e =>
      obtain ⟨report, -, hdispatches⟩ := hub.dispatches now e
      show ((hub.dispatch .silent now e).hub.stats.get? stream).isSome ↔ _
      rcases hdispatches.gap_cases with ⟨-, -, -, hstats, -⟩ | ⟨gap, -, -, -, -, hstats, -⟩
      · rw [hstats]
        exact hsame fun other => StatsTable.get?_record _ _ other _
      · rw [hstats]
        exact hsame fun other => StatsTable.Shows.get?_countGap_countMessage _ _ other _ _
  | track stream => exact hsame fun other => StatsTable.get?_track _ _ other
  | countReconnect stream => exact hsame fun other => StatsTable.get?_record _ _ other _
  | addReceiver => simp [act, addAlertReceiver, Action.touched?]
  | removeReceiver =>
    simp only [act, removeAlertReceiver]
    split <;> simp [Action.touched?]
  | takeAlert => simp [act, takeAlert, Action.touched?]

/-! ## Tallies -/

/-- A reading of the tallies that counts the notices on one topic about consumers. -/
structure IsTallied (read : Subscription C → UInt64) (topic : Notice.Topic)
    (counts : Subscription C → Event → Bool) : Prop where
  isOfConsumers : topic = .crash ∨ topic = .rejection
  read_new (id : SubscriptionId) (interest : Interest) (consumer : C) :
    read ⟨id, interest, consumer, ⟨0, 0, 0⟩⟩ = 0
  read_deliver (s : Subscription C) (e : Event) :
    read (s.deliver e).subscription = read s + if counts s e then 1 else 0
  countP_deliver (s : Subscription C) (e : Event) :
    (s.deliver e).notices.countP (·.isOn topic) = if counts s e then 1 else 0

theorem isTallied_crashes :
    IsTallied (fun s : Subscription C => s.tally.crashes) .crash
      fun s e => (s.deliver e).isCrashed where
  isOfConsumers := Or.inl rfl
  read_new _ _ _ := rfl
  read_deliver := Subscription.crashes_deliver
  countP_deliver s e := s.countP_crash_deliver e

theorem isTallied_rejections :
    IsTallied (fun s : Subscription C => s.tally.failures - s.tally.crashes) .rejection
      fun s e => (s.deliver e).isRejected where
  isOfConsumers := Or.inr rfl
  read_new _ _ _ := UInt64.sub_self 0
  read_deliver := Subscription.rejections_deliver
  countP_deliver s e := s.countP_rejection_deliver e

variable {hub action} {read : Subscription C → UInt64} {topic : Notice.Topic}
  {counts : Subscription C → Event → Bool} {replies : List (Reply C)} {total bound : Nat}

omit [Consumer C] [Consumer.Discreet C] in
theorem IsTallied.of_quiet {next : Hub C} {reply : Reply C} {notices : List Notice}
    (h : IsLedger ((everyone replies hub).map read) total bound)
    (hperm : (everyone (replies ++ [reply]) next).Perm (everyone replies hub))
    (hquiet : notices.countP (·.isOn topic) = 0) :
    IsLedger ((everyone (replies ++ [reply]) next).map read)
      (total + notices.countP (·.isOn topic)) (bound + 1) := by
  rw [hquiet]
  exact (h.perm (hperm.map read)).mono (Nat.le_succ bound)

omit [Consumer.Discreet C] in
/-- The tallies of all consumers count what an action notes of them. -/
theorem IsTallied.act (ht : IsTallied read topic counts)
    (h : IsLedger ((everyone replies hub).map read) total bound) :
    IsLedger
      ((everyone (replies ++ [(hub.act .silent action).1]) (hub.act .silent action).2).map read)
      (total + (hub.told .silent action).countP (·.isOn topic)) (bound + 1) := by
  have hnew : topic ≠ .newStream := by
    rcases ht.isOfConsumers with rfl | rfl <;> decide
  rcases hub.quiet_or action with ⟨consumer, interest, rfl⟩ | ⟨id, rfl⟩ | ⟨now, e, rfl⟩ | hquiet
  · have heveryone : everyone (replies ++ [.answered (.joined ⟨hub.nextId⟩)])
        (hub.subscribe consumer interest).2.1 =
          everyone replies hub ++ [⟨⟨hub.nextId⟩, interest, consumer, ⟨0, 0, 0⟩⟩] := by
      rw [everyone_of_not_ended rfl]
      exact (List.append_assoc _ _ _).symm
    have hnone : (hub.told .silent (.operate (.subscribe consumer interest))).countP
        (·.isOn topic) = 0 := by
      rcases ht.isOfConsumers with rfl | rfl <;> rfl
    rw [hnone]
    show IsLedger ((everyone (replies ++ [.answered (.joined ⟨hub.nextId⟩)])
      (hub.subscribe consumer interest).2.1).map read) _ _
    rw [heveryone, List.map_append, List.map_singleton, ht.read_new]
    exact h.append_zero.mono (Nat.le_succ bound)
  · refine IsTallied.of_quiet h (everyone_unsubscribe replies hub id) ?_
    simp only [told, Hub.unsubscribe]
    rcases ht.isOfConsumers with rfl | rfl <;> split <;> rfl
  · obtain ⟨report, hreply, hdispatches⟩ := hub.act_dispatch now e
    obtain ⟨_, noted, -, hnotes, hnotices⟩ := hub.notices_dispatch now e
    have htrack : (hub.stats.track e.stream).2.countP (·.isOn topic) = 0 := by
      rw [List.countP_eq_length_filter, filter_track _ _ hnew]
      rfl
    have hnoted : noted.countP (·.isOn topic) = 0 := by
      rw [List.countP_eq_length_filter]
      rcases ht.isOfConsumers with rfl | rfl <;>
        rw [hnotes.filter_eq_nil (by decide) (by decide)] <;> rfl
    have hcount : (hub.told .silent (.operate (.dispatch now e))).countP (·.isOn topic) =
        hub.subscriptions.countP fun s => counts s e := by
      rw [told, hnotices, List.countP_append, List.countP_append, htrack, hnoted,
        countP_flatMap_deliver fun s => ht.countP_deliver s e]
      omega
    rw [hcount, hreply, everyone_of_not_ended rfl]
    exact Balanced.isLedger_deliver (fun s => ht.read_deliver s e) h
      hdispatches.subscriptions_eq
  · refine IsTallied.of_quiet h (everyone_perm hquiet.ended?_eq hquiet.subscriptions_eq) ?_
    rw [List.countP_eq_length_filter, hquiet.filter_told hnew]
    rfl

/-! ## Runs -/

/-- A hub whose counts are those of some notices, with the replies that it gave. -/
structure Recorded (hub : Hub C) (notices : List Notice) (replies : List (Reply C)) : Prop where
  gaps_eq : notices.filter (·.isOn .gap) = (replies.filterMap Reply.gap?).map .gapDetected
  droppedAlerts_eq : hub.droppedAlerts = .ofNat (notices.countP (·.isOn .lostAlert))
  crashes : IsLedger ((everyone replies hub).map fun s => s.tally.crashes)
    (notices.countP (·.isOn .crash)) replies.length
  rejections : IsLedger ((everyone replies hub).map fun s => s.tally.failures - s.tally.crashes)
    (notices.countP (·.isOn .rejection)) replies.length
  streams : ∃ streams : List StreamId, streams.Nodup ∧
    (∀ stream, stream ∈ streams ↔ (hub.stats.get? stream).isSome) ∧
    notices.filter (·.isOn .newStream) = streams.map .streamTracked
  departures_eq : notices.filter (·.isOn .departure) =
    (replies.filterMap Reply.ended?).map departure

namespace Recorded

variable {notices : List Notice}

omit [Consumer.Discreet C] in
theorem of_create {capacity : Nat} (hcreate : create capacity = .ok (hub, notices)) :
    hub.Recorded notices [] := by
  have hnotices : notices = [.hubReady capacity] := by
    unfold create at hcreate
    split at hcreate
    · cases hcreate
    · cases hcreate
      rfl
  obtain rfl := create_eq_ok hcreate
  obtain rfl := hnotices
  refine ⟨rfl, rfl, .nil, .nil, ⟨[], List.nodup_nil, ?_, rfl⟩, rfl⟩
  intro stream
  simp [StatsTable.empty, StatsTable.get?]

theorem act (h : hub.Recorded notices replies) (action : Action C) :
    (hub.act .silent action).2.Recorded (notices ++ hub.told .silent action)
      (replies ++ [(hub.act .silent action).1]) := by
  have hmap : ∀ {β : Type} (f : Reply C → Option β) (reply : Reply C),
      (replies ++ [reply]).filterMap f = replies.filterMap f ++ (f reply).toList := by
    intro β f reply
    rw [List.filterMap_append]
    cases hf : f reply <;> simp [hf]
  have hlength : (replies ++ [(hub.act .silent action).1]).length = replies.length + 1 :=
    List.length_append
  constructor
  case gaps_eq => rw [List.filter_append, h.gaps_eq, filter_gap_told, hmap, List.map_append]
  case droppedAlerts_eq =>
    rw [droppedAlerts_act, h.droppedAlerts_eq, List.countP_append, UInt64.ofNat_add]
  case crashes =>
    rw [List.countP_append, hlength]
    exact isTallied_crashes.act h.crashes
  case rejections =>
    rw [List.countP_append, hlength]
    exact isTallied_rejections.act h.rejections
  case streams =>
    obtain ⟨streams, hnodup, hmem, heq⟩ := h.streams
    refine ⟨streams ++ action.touched?.toList.filter fun stream => (hub.stats.get? stream).isNone,
      ?_, ?_, ?_⟩
    · have hnew : (action.touched?.toList.filter fun stream =>
          (hub.stats.get? stream).isNone).Nodup := by
        refine List.Nodup.filter _ ?_
        cases action.touched? <;> simp
      refine List.nodup_append.2 ⟨hnodup, hnew, ?_⟩
      rintro stream hold _ hfirst rfl
      have hnone := (List.mem_filter.1 hfirst).2
      have hsome := (hmem stream).1 hold
      rw [Option.isSome_iff_ne_none] at hsome
      exact hsome (Option.isNone_iff_eq_none.1 hnone)
    · intro stream
      rw [isSome_get?_act, List.mem_append, hmem, List.mem_filter, Option.mem_toList]
      cases hub.stats.get? stream <;> simp
    · rw [List.filter_append, heq, filter_newStream_told, List.map_append]
  case departures_eq =>
    rw [List.filter_append, h.departures_eq, filter_departure_told, hmap, List.map_append]

end Recorded

theorem recorded_actAll {capacity : Nat} {notices : List Notice}
    (hcreate : create capacity = .ok (hub, notices)) (actions : List (Action C)) :
    (hub.actAll .silent actions).2.Recorded (notices ++ hub.toldAll .silent actions)
      (hub.actAll .silent actions).1 := by
  induction actions using List.reverseRecOn with
  | nil =>
    rw [toldAll, List.append_nil]
    exact .of_create hcreate
  | append_singleton actions last ih =>
    have htold : (hub.actAll .silent actions).2.toldAll .silent [last] =
        (hub.actAll .silent actions).2.told .silent last := List.append_nil _
    rw [toldAll_append, htold, ← List.append_assoc, actAll_append_singleton]
    exact ih.act last

end Hub

end DepthFeed

import DepthFeed.Consumer.Script
import DepthFeed.Proofs.Hub.Actions

/-!
# Alerts of gaps

A hub sends an alert for every gap it detects through a channel of limited capacity, whose receivers
come and go. No alert is lost without being counted, doubled or moved before another one, and nobody
but the receivers notices what became of it.

* `Hub.SendsAlert`: what becomes of the alert of one dispatch.
* `Hub.detections`: the gaps that a run detects, each with whether there was room for its alert.
* `Hub.Alerted`: a hub whose alerts are those of its detections, kept by `Hub.Alerted.act`.
* `Hub.SameButAlerts`, `Hub.actAll_sameButAlerts`: hubs that differ in their alerts answer alike.
* `Hub.keepsAlerts`: the alerts of a run without a fault on a new hub.
-/

namespace DepthFeed

namespace Channel

variable {α : Type} {c : Channel α}

/-- A channel that someone receives from refuses an item only for want of room. -/
theorem send_of_receivers_pos (hreceivers : 0 < c.receivers) (item : α) :
    c.send item =
      if c.waiting.length < c.capacity then .ok { c with waiting := c.waiting ++ [item] }
      else .error .full := by
  unfold send
  rw [if_neg (Nat.ne_of_gt hreceivers)]
  by_cases hroom : c.waiting.length < c.capacity
  · rw [if_pos hroom, if_neg (Nat.not_le.2 hroom)]
  · rw [if_neg hroom, if_pos (Nat.not_lt.1 hroom)]

end Channel

namespace Hub

variable {C : Type}

/-! ## One alert -/

/-- What becomes of the alert of a gap, where `capacity` alerts can wait: it is the last one that
waits if there is room for it, and is counted as dropped otherwise. -/
def SendsAlert (capacity : Nat) (hub : Hub C) (gap : Option Gap) (next : Hub C) : Prop :=
  match gap with
  | none => next.alerts = hub.alerts ∧ next.droppedAlerts = hub.droppedAlerts
  | some gap =>
    if hub.alerts.waiting.length < capacity then
      next.alerts = { hub.alerts with waiting := hub.alerts.waiting ++ [gap] } ∧
        next.droppedAlerts = hub.droppedAlerts
    else
      next.alerts = hub.alerts ∧ next.droppedAlerts = hub.droppedAlerts + 1

/-- As long as there is a receiver, there is room for an alert or it is dropped. -/
theorem Dispatches.sendsAlert [Consumer C] {hub next : Hub C} {now : Int64} {e : Event}
    {report : Report} (h : hub.Dispatches now e report next)
    (hreceivers : 0 < hub.alerts.receivers) :
    hub.SendsAlert hub.alerts.capacity report.gap next := by
  unfold SendsAlert
  rcases h.gap_cases with ⟨hgap, -, -, -, halerts, hdropped⟩ | ⟨gap, hgap, -, -, -, -, hsent⟩
  · rw [hgap]
    exact ⟨halerts, hdropped⟩
  · rw [hgap]
    rw [Channel.send_of_receivers_pos hreceivers] at hsent
    dsimp only
    split at hsent
    · rename_i hroom
      rw [if_pos hroom]
      rcases hsent with ⟨hok, hdropped⟩ | ⟨hfull, -⟩ | ⟨hnobody, -⟩
      · exact ⟨(Except.ok.inj hok).symm, hdropped⟩
      · cases hfull
      · cases hnobody
    · rename_i hroom
      rw [if_neg hroom]
      rcases hsent with ⟨hok, -⟩ | ⟨-, halerts, hdropped⟩ | ⟨hnobody, -⟩
      · cases hok
      · exact ⟨halerts, hdropped⟩
      · cases hnobody

/-! ## Detections -/

/-- The detected gaps for whose alerts there was room. -/
def queued (found : List (Gap × Bool)) : List Gap := (found.filter Prod.snd).map Prod.fst

/-- How many alerts there was no room for. -/
def refused (found : List (Gap × Bool)) : Nat := found.countP fun detection => !detection.2

theorem queued_append (earlier later : List (Gap × Bool)) :
    queued (earlier ++ later) = queued earlier ++ queued later := by
  simp [queued]

theorem length_eq_queued_add_refused (found : List (Gap × Bool)) :
    found.length = (queued found).length + refused found := by
  unfold queued refused
  rw [List.length_map, ← List.countP_eq_length_filter]
  simpa using List.length_eq_countP_add_countP (l := found) Prod.snd

variable [Consumer C]

/-- The gap that an action detects where `capacity` alerts can wait, with whether there is room. -/
def detection? (capacity : Nat) (mode : OverflowMode) (hub : Hub C) (action : Action C) :
    Option (Gap × Bool) :=
  (hub.act mode action).1.gap?.map fun gap =>
    (gap, decide (hub.alerts.waiting.length < capacity))

/-- The gaps that a run detects, each with whether there was room for its alert at that moment. -/
def detections (capacity : Nat) (mode : OverflowMode) (hub : Hub C) :
    List (Action C) → List (Gap × Bool)
  | [] => []
  | action :: actions =>
    (hub.detection? capacity mode action).toList ++
      (hub.act mode action).2.detections capacity mode actions

theorem detections_append_singleton (capacity : Nat) (mode : OverflowMode) (hub : Hub C)
    (actions : List (Action C)) (last : Action C) :
    hub.detections capacity mode (actions ++ [last]) =
      hub.detections capacity mode actions ++
        ((hub.actAll mode actions).2.detection? capacity mode last).toList := by
  induction actions generalizing hub with
  | nil => exact List.append_nil _
  | cons action actions ih =>
    rw [List.cons_append, detections, detections, ih, List.append_assoc]
    rfl

theorem detections_of_noFault {capacity : Nat} {mode : OverflowMode} {hub : Hub C}
    {actions : List (Action C)} (h : NoFault (hub.actAll mode actions).1) :
    hub.detections capacity mode actions = hub.detections capacity .silent actions := by
  induction actions using List.reverseRecOn with
  | nil => rfl
  | append_singleton actions last ih =>
    rw [actAll_append_singleton] at h
    obtain ⟨hearlier, hlast⟩ := h.of_append
    have hsame := act_of_not_isFault (hlast _ List.mem_cons_self)
    rw [detections_append_singleton, detections_append_singleton, ih hearlier, detection?, hsame,
      actAll_of_noFault hearlier]
    rfl

/-- The detected gaps are those that the reports tell, one after the other. -/
theorem map_fst_detections (capacity : Nat) (mode : OverflowMode) (hub : Hub C)
    (actions : List (Action C)) :
    (hub.detections capacity mode actions).map Prod.fst =
      (hub.actAll mode actions).1.filterMap Reply.gap? := by
  induction actions using List.reverseRecOn with
  | nil => rfl
  | append_singleton actions last ih =>
    rw [detections_append_singleton, actAll_append_singleton, List.map_append, ih,
      List.filterMap_append]
    unfold detection?
    cases hgap : ((hub.actAll mode actions).2.act mode last).1.gap? <;> simp [hgap]

/-! ## What waits -/

/-- The alerts of a hub are those of the gaps that were detected: some of them were received, the
others wait, and the rest was dropped. -/
structure Alerted (capacity : Nat) (hub : Hub C) (received : List Gap) (found : List (Gap × Bool)) :
    Prop where
  capacity_eq : hub.alerts.capacity = capacity
  receivers_pos : 0 < hub.alerts.receivers
  length_waiting_le : hub.alerts.waiting.length ≤ capacity
  received_append_waiting : received ++ hub.alerts.waiting = queued found
  gaps_eq : hub.monitor.gaps = .ofNat found.length
  dropped_eq : hub.droppedAlerts = .ofNat (refused found)

namespace Alerted

variable {capacity : Nat} {hub next : Hub C} {received : List Gap} {found : List (Gap × Bool)}

omit [Consumer C] in
theorem of_create {notices : List Notice} (hcreate : create capacity = .ok (hub, notices)) :
    hub.Alerted capacity [] [] := by
  obtain rfl := create_eq_ok hcreate
  exact ⟨rfl, Nat.zero_lt_one, Nat.zero_le _, rfl, rfl, rfl⟩

omit [Consumer C] in
theorem keep (h : hub.Alerted capacity received found) (halerts : next.alerts = hub.alerts)
    (hgaps : next.monitor.gaps = hub.monitor.gaps)
    (hdropped : next.droppedAlerts = hub.droppedAlerts) :
    next.Alerted capacity received found := by
  constructor
  · rw [halerts]
    exact h.capacity_eq
  · rw [halerts]
    exact h.receivers_pos
  · rw [halerts]
    exact h.length_waiting_le
  · rw [halerts]
    exact h.received_append_waiting
  · exact hgaps.trans h.gaps_eq
  · exact hdropped.trans h.dropped_eq

omit [Consumer C] in
theorem removeAlertReceiver (h : hub.Alerted capacity received found) :
    hub.removeAlertReceiver.Alerted capacity received found := by
  unfold Hub.removeAlertReceiver
  split
  · rename_i hothers
    refine ⟨h.capacity_eq, ?_, h.length_waiting_le, h.received_append_waiting, h.gaps_eq,
      h.dropped_eq⟩
    show 0 < hub.alerts.receivers - 1
    omega
  · exact h

omit [Consumer C] in
theorem takeAlert (h : hub.Alerted capacity received found) :
    hub.takeAlert.2.Alerted capacity (received ++ hub.takeAlert.1.toList) found := by
  have hwaiting := h.received_append_waiting
  have hle := h.length_waiting_le
  refine ⟨h.capacity_eq, h.receivers_pos, ?_, ?_, h.gaps_eq, h.dropped_eq⟩
  · show hub.alerts.waiting.tail.length ≤ capacity
    rw [List.length_tail]
    omega
  · show received ++ hub.alerts.waiting.head?.toList ++ hub.alerts.waiting.tail = queued found
    rw [← hwaiting, List.append_assoc]
    cases hub.alerts.waiting <;> rfl

omit [Consumer C] in
/-- One more alert waits. -/
theorem enqueue (h : hub.Alerted capacity received found) {gap : Gap}
    (hroom : hub.alerts.waiting.length < capacity)
    (hgaps : next.monitor.gaps = hub.monitor.gaps + 1)
    (halerts : next.alerts = { hub.alerts with waiting := hub.alerts.waiting ++ [gap] })
    (hdropped : next.droppedAlerts = hub.droppedAlerts) :
    next.Alerted capacity received (found ++ [(gap, true)]) := by
  constructor
  · rw [halerts]
    exact h.capacity_eq
  · rw [halerts]
    exact h.receivers_pos
  · rw [halerts, List.length_append]
    exact hroom
  · rw [halerts, queued_append, ← h.received_append_waiting, List.append_assoc]
    rfl
  · rw [hgaps, h.gaps_eq, List.length_append, UInt64.ofNat_add]
    rfl
  · rw [hdropped, h.dropped_eq]
    simp [refused]

omit [Consumer C] in
/-- One more alert is dropped. -/
theorem refuse (h : hub.Alerted capacity received found) (gap : Gap)
    (hgaps : next.monitor.gaps = hub.monitor.gaps + 1) (halerts : next.alerts = hub.alerts)
    (hdropped : next.droppedAlerts = hub.droppedAlerts + 1) :
    next.Alerted capacity received (found ++ [(gap, false)]) := by
  constructor
  · rw [halerts]
    exact h.capacity_eq
  · rw [halerts]
    exact h.receivers_pos
  · rw [halerts]
    exact h.length_waiting_le
  · rw [halerts, queued_append, h.received_append_waiting]
    exact (List.append_nil _).symm
  · rw [hgaps, h.gaps_eq, List.length_append, UInt64.ofNat_add]
    rfl
  · rw [hdropped, h.dropped_eq]
    simp [refused, UInt64.ofNat_add]

theorem dispatch (h : hub.Alerted capacity received found) {now : Int64} {e : Event}
    {report : Report} (hdispatches : hub.Dispatches now e report next) :
    next.Alerted capacity received
      (found ++ (report.gap.map fun gap =>
        (gap, decide (hub.alerts.waiting.length < capacity))).toList) := by
  have hsends := hdispatches.sendsAlert h.receivers_pos
  rw [h.capacity_eq] at hsends
  unfold SendsAlert at hsends
  rcases hdispatches.gap_cases with ⟨hgap, hgaps, -⟩ | ⟨gap, hgap, -, hgaps, -⟩
  · rw [hgap] at hsends ⊢
    rw [Option.map_none, Option.toList_none, List.append_nil]
    exact h.keep hsends.1 hgaps hsends.2
  · rw [hgap] at hsends ⊢
    dsimp only at hsends
    by_cases hroom : hub.alerts.waiting.length < capacity
    · rw [if_pos hroom] at hsends
      rw [decide_eq_true hroom]
      exact h.enqueue hroom hgaps hsends.1 hsends.2
    · rw [if_neg hroom] at hsends
      rw [decide_eq_false hroom]
      exact h.refuse gap hgaps hsends.1 hsends.2

omit [Consumer C] in
/-- Nothing was received and nothing found. -/
theorem quiet (h : hub.Alerted capacity received found) :
    hub.Alerted capacity (received ++ []) (found ++ []) := by
  rwa [List.append_nil, List.append_nil]

/-- Whatever is done to a hub, in silent mode, keeps account of its alerts. -/
theorem act (h : hub.Alerted capacity received found) (action : Action C) :
    (hub.act .silent action).2.Alerted capacity
      (received ++ (hub.act .silent action).1.received?.toList)
      (found ++ (hub.detection? capacity .silent action).toList) := by
  cases action with
  | operate operation =>
    cases operation with
    | dispatch now e =>
      obtain ⟨report, hreply, hdispatches⟩ := hub.act_dispatch now e
      have hreceived : (hub.act .silent (.operate (.dispatch now e))).1.received? = none := by
        rw [hreply]
        rfl
      rw [hreceived, Option.toList_none, List.append_nil, detection?, hreply]
      exact h.dispatch hdispatches
    | subscribe consumer interest => refine quiet (h.keep ?_ ?_ ?_) <;> rfl
    | unsubscribe id =>
      refine quiet (h.keep ?_ ?_ ?_)
      all_goals
        simp only [Hub.act, performIn, perform, unsubscribe]
        split <;> rfl
    | forget stream => refine quiet (h.keep ?_ ?_ ?_) <;> rfl
  | track stream => refine quiet (h.keep ?_ ?_ ?_) <;> rfl
  | countReconnect stream => refine quiet (h.keep ?_ ?_ ?_) <;> rfl
  | addReceiver =>
    refine quiet ⟨h.capacity_eq, ?_, h.length_waiting_le, h.received_append_waiting, h.gaps_eq,
      h.dropped_eq⟩
    exact Nat.succ_pos _
  | removeReceiver => exact h.removeAlertReceiver.quiet
  | takeAlert =>
    have hnothing : hub.detection? capacity .silent .takeAlert = none := rfl
    rw [hnothing, Option.toList_none, List.append_nil]
    exact h.takeAlert

end Alerted

theorem alerted_actAll {capacity : Nat} {hub : Hub C} {notices : List Notice}
    (hcreate : create capacity = .ok (hub, notices)) (actions : List (Action C)) :
    (hub.actAll .silent actions).2.Alerted capacity
      ((hub.actAll .silent actions).1.filterMap Reply.received?)
      (hub.detections capacity .silent actions) := by
  induction actions using List.reverseRecOn with
  | nil => exact .of_create hcreate
  | append_singleton actions last ih =>
    have hlast := ih.act last
    rw [actAll_append_singleton, detections_append_singleton, List.filterMap_append]
    cases hreceived : ((hub.actAll .silent actions).2.act .silent last).1.received? <;>
      simpa [hreceived] using hlast

/-! ## Hubs with other alerts -/

/-- Hubs that differ at most in their alerts. -/
structure SameButAlerts (hub hub' : Hub C) : Prop where
  subscriptions_eq : hub.subscriptions = hub'.subscriptions
  nextId_eq : hub.nextId = hub'.nextId
  monitor_eq : hub.monitor = hub'.monitor
  stats_eq : hub.stats = hub'.stats
  dispatched_eq : hub.dispatched = hub'.dispatched

/-- What only concerns the receivers of alerts. -/
def Action.isForAlerts : Action C → Bool
  | .addReceiver | .removeReceiver | .takeAlert => true
  | _ => false

namespace SameButAlerts

variable {hub hub' hub'' : Hub C}

omit [Consumer C] in
theorem refl (hub : Hub C) : hub.SameButAlerts hub := ⟨rfl, rfl, rfl, rfl, rfl⟩

omit [Consumer C] in
theorem symm (h : hub.SameButAlerts hub') : hub'.SameButAlerts hub :=
  ⟨h.subscriptions_eq.symm, h.nextId_eq.symm, h.monitor_eq.symm, h.stats_eq.symm,
    h.dispatched_eq.symm⟩

omit [Consumer C] in
theorem trans (h : hub.SameButAlerts hub') (h' : hub'.SameButAlerts hub'') :
    hub.SameButAlerts hub'' :=
  ⟨h.subscriptions_eq.trans h'.subscriptions_eq, h.nextId_eq.trans h'.nextId_eq,
    h.monitor_eq.trans h'.monitor_eq, h.stats_eq.trans h'.stats_eq,
    h.dispatched_eq.trans h'.dispatched_eq⟩

omit [Consumer C] in
theorem noteGap? (h : hub.SameButAlerts hub') (gap : Option Gap) :
    (hub.noteGap? gap).1.SameButAlerts (hub'.noteGap? gap).1 := by
  cases gap with
  | none => exact h
  | some gap =>
    obtain ⟨alerts, dropped, hnoted, -⟩ := noteGap_frame hub gap
    obtain ⟨alerts', dropped', hnoted', -⟩ := noteGap_frame hub' gap
    unfold Hub.noteGap?
    dsimp only
    rw [hnoted, hnoted', h.stats_eq]
    exact ⟨h.subscriptions_eq, h.nextId_eq, h.monitor_eq, rfl, h.dispatched_eq⟩

theorem deliverAll (h : hub.SameButAlerts hub') (e : Event) (gap : Option Gap) :
    (hub.deliverAll e gap).report = (hub'.deliverAll e gap).report ∧
      (hub.deliverAll e gap).hub.SameButAlerts (hub'.deliverAll e gap).hub := by
  unfold Hub.deliverAll
  dsimp only
  rw [h.subscriptions_eq]
  refine ⟨rfl, rfl, h.nextId_eq, h.monitor_eq, h.stats_eq, ?_⟩
  rw [h.dispatched_eq]

theorem dispatch (h : hub.SameButAlerts hub') (mode : OverflowMode) (now : Int64) (e : Event) :
    (hub.dispatch mode now e).report = (hub'.dispatch mode now e).report ∧
      (hub.dispatch mode now e).hub.SameButAlerts (hub'.dispatch mode now e).hub := by
  unfold Hub.dispatch
  dsimp only
  rw [h.monitor_eq, h.stats_eq]
  have hcounted : SameButAlerts
      { hub with
        stats := (hub'.stats.countMessage e.stream (latency now e)).1
        monitor := (hub'.monitor.observe mode e.stream e.sequence).1 }
      { hub' with
        stats := (hub'.stats.countMessage e.stream (latency now e)).1
        monitor := (hub'.monitor.observe mode e.stream e.sequence).1 } :=
    ⟨h.subscriptions_eq, h.nextId_eq, rfl, rfl, h.dispatched_eq⟩
  cases (hub'.monitor.observe mode e.stream e.sequence).2 with
  | error fault => exact ⟨rfl, hcounted⟩
  | ok gap => exact (hcounted.noteGap? gap).deliverAll e gap

theorem performIn (h : hub.SameButAlerts hub') (mode : OverflowMode) (operation : Operation C) :
    (hub.performIn mode operation).1 = (hub'.performIn mode operation).1 ∧
      (hub.performIn mode operation).2.SameButAlerts (hub'.performIn mode operation).2 := by
  cases operation with
  | dispatch now e =>
    obtain ⟨hreport, hsame⟩ := h.dispatch mode now e
    refine ⟨?_, hsame⟩
    simp only [Hub.performIn, posts]
    rw [hreport, h.subscriptions_eq]
  | subscribe consumer interest =>
    simp only [Hub.performIn, perform, subscribe]
    rw [h.subscriptions_eq, h.nextId_eq]
    exact ⟨rfl, rfl, rfl, h.monitor_eq, h.stats_eq, h.dispatched_eq⟩
  | unsubscribe id =>
    have hfound : hub.subscription? id = hub'.subscription? id := by
      unfold subscription?
      rw [h.subscriptions_eq]
    simp only [Hub.performIn, perform, unsubscribe]
    rw [hfound]
    split
    · exact ⟨rfl, h⟩
    · rw [h.subscriptions_eq]
      exact ⟨rfl, rfl, h.nextId_eq, h.monitor_eq, h.stats_eq, h.dispatched_eq⟩
  | forget stream =>
    refine ⟨rfl, h.subscriptions_eq, h.nextId_eq, ?_, h.stats_eq, h.dispatched_eq⟩
    exact congrArg (·.forget stream) h.monitor_eq

/-- Hubs that differ in their alerts do not answer differently. -/
theorem act (h : hub.SameButAlerts hub') (mode : OverflowMode) {action : Action C}
    (haction : action.isForAlerts = false) :
    (hub.act mode action).1 = (hub'.act mode action).1 ∧
      (hub.act mode action).2.SameButAlerts (hub'.act mode action).2 := by
  cases action with
  | operate operation =>
    obtain ⟨hanswer, hsame⟩ := h.performIn mode operation
    exact ⟨congrArg Reply.answered hanswer, hsame⟩
  | track stream =>
    refine ⟨rfl, h.subscriptions_eq, h.nextId_eq, h.monitor_eq, ?_, h.dispatched_eq⟩
    exact congrArg (fun stats => (stats.track stream).1) h.stats_eq
  | countReconnect stream =>
    refine ⟨rfl, h.subscriptions_eq, h.nextId_eq, h.monitor_eq, ?_, h.dispatched_eq⟩
    exact congrArg (fun stats => (stats.countReconnect stream).1) h.stats_eq
  | addReceiver => cases haction
  | removeReceiver => cases haction
  | takeAlert => cases haction

end SameButAlerts

/-- What concerns the receivers of alerts changes nothing else, and answers nothing. -/
theorem act_of_isForAlerts (hub : Hub C) (mode : OverflowMode) {action : Action C}
    (haction : action.isForAlerts = true) :
    (hub.act mode action).1.answer? = none ∧ (hub.act mode action).2.SameButAlerts hub := by
  cases action with
  | operate operation => cases haction
  | track stream => cases haction
  | countReconnect stream => cases haction
  | addReceiver => exact ⟨rfl, rfl, rfl, rfl, rfl, rfl⟩
  | removeReceiver =>
    simp only [act, removeAlertReceiver]
    split <;> exact ⟨rfl, rfl, rfl, rfl, rfl, rfl⟩
  | takeAlert => exact ⟨rfl, rfl, rfl, rfl, rfl, rfl⟩

/-- A run answers what it answers without its receivers of alerts. -/
theorem actAll_filter {hub hub' : Hub C} (h : hub.SameButAlerts hub') (mode : OverflowMode)
    (actions : List (Action C)) :
    (hub.actAll mode actions).1.filterMap Reply.answer? =
        (hub'.actAll mode (actions.filter (!·.isForAlerts))).1.filterMap Reply.answer? ∧
      (hub.actAll mode actions).2.SameButAlerts
        (hub'.actAll mode (actions.filter (!·.isForAlerts))).2 := by
  induction actions generalizing hub hub' with
  | nil => exact ⟨rfl, h⟩
  | cons action actions ih =>
    cases haction : action.isForAlerts with
    | true =>
      obtain ⟨hnothing, hsame⟩ := hub.act_of_isForAlerts mode haction
      obtain ⟨hanswers, hlast⟩ := ih (hsame.trans h)
      rw [List.filter_cons_of_neg (by simp [haction])]
      refine ⟨?_, hlast⟩
      rw [← hanswers]
      exact List.filterMap_cons_none hnothing
    | false =>
      obtain ⟨hreply, hsame⟩ := h.act mode haction
      obtain ⟨hanswers, hlast⟩ := ih hsame
      rw [List.filter_cons_of_pos (by simp [haction])]
      refine ⟨?_, hlast⟩
      unfold actAll at hanswers ⊢
      rw [runWith_cons, runWith_cons, List.filterMap_cons, List.filterMap_cons, hreply, hanswers]

/-- What becomes of the alerts changes no report, no delivery and no count: runs with the same
operations on hubs that differ at most in their alerts answer alike. -/
theorem actAll_sameButAlerts {hub hub' : Hub C} (h : hub.SameButAlerts hub')
    (mode : OverflowMode) {actions actions' : List (Action C)}
    (hactions : actions.filter (!·.isForAlerts) = actions'.filter (!·.isForAlerts)) :
    (hub.actAll mode actions).1.filterMap Reply.answer? =
        (hub'.actAll mode actions').1.filterMap Reply.answer? ∧
      (hub.actAll mode actions).2.SameButAlerts (hub'.actAll mode actions').2 := by
  obtain ⟨hanswers, hlast⟩ := actAll_filter h mode actions
  obtain ⟨hanswers', hlast'⟩ := actAll_filter (.refl hub') mode actions'
  rw [hactions] at hanswers hlast
  exact ⟨hanswers.trans hanswers'.symm, hlast.trans hlast'.symm⟩

omit [Consumer C] in
theorem SameButAlerts.of_create {capacity capacity' : Nat} {hub hub' : Hub C}
    {notices notices' : List Notice} (hcreate : create capacity = .ok (hub, notices))
    (hcreate' : create capacity' = .ok (hub', notices')) : hub.SameButAlerts hub' := by
  obtain rfl := create_eq_ok hcreate
  obtain rfl := create_eq_ok hcreate'
  exact ⟨rfl, rfl, rfl, rfl, rfl⟩

/-! ## Runs -/

/-- A run on a new hub keeps account of its alerts, of which `capacity` can wait. -/
structure KeepsAlerts (capacity : Nat) (hub : Hub C) (mode : OverflowMode)
    (actions : List (Action C)) : Prop where
  /-- Every dispatch of the run is reported, and its alert waits if fewer than `capacity` do. -/
  sendsAlert (before after : List (Action C)) (now : Int64) (e : Event) :
    actions = before ++ .operate (.dispatch now e) :: after →
      ∃ report,
        (hub.actAll mode actions).1[before.length]? =
          some (.answered (.dispatched (.ok report) ((hub.actAll mode before).2.posts e))) ∧
        (hub.actAll mode before).2.SendsAlert capacity report.gap
          (hub.actAll mode (before ++ [.operate (.dispatch now e)])).2
  detections_eq : (hub.detections capacity mode actions).map Prod.fst =
    (hub.actAll mode actions).1.filterMap Reply.gap?
  /-- What was received, by whomever, and then what waits are the queued gaps as they were found. -/
  received_append_waiting :
    (hub.actAll mode actions).1.filterMap Reply.received? ++
        (hub.actAll mode actions).2.alerts.waiting =
      queued (hub.detections capacity mode actions)
  length_waiting_le : (hub.actAll mode actions).2.alerts.waiting.length ≤ capacity
  /-- The channel is never without a receiver, even after all those from outside left. -/
  hasReceiver : (hub.actAll mode actions).2.alerts.hasReceiver = true
  gaps_eq : (hub.actAll mode actions).2.monitor.gaps =
    .ofNat (((hub.actAll mode actions).1.filterMap Reply.received?).length +
        (hub.actAll mode actions).2.alerts.waiting.length) +
      (hub.actAll mode actions).2.droppedAlerts
  toNat_gaps : (hub.detections capacity mode actions).length < 2 ^ 64 →
    (hub.actAll mode actions).2.monitor.gaps.toNat =
      ((hub.actAll mode actions).1.filterMap Reply.received?).length +
        (hub.actAll mode actions).2.alerts.waiting.length +
        (hub.actAll mode actions).2.droppedAlerts.toNat
  /-- With another capacity, and with other receivers that receive at other moments, there are the
  same reports, deliveries and counts. -/
  unnoticed (capacity' : Nat) (hub' : Hub C) (notices' : List Notice)
    (actions' : List (Action C)) : create capacity' = .ok (hub', notices') →
      actions'.filter (!·.isForAlerts) = actions.filter (!·.isForAlerts) →
        (hub'.actAll mode actions').1.filterMap Reply.answer? =
            (hub.actAll mode actions).1.filterMap Reply.answer? ∧
          (hub'.actAll mode actions').2.SameButAlerts (hub.actAll mode actions).2

omit [Consumer C] in
/-- Every detected gap was received, waits, or was dropped. -/
theorem Alerted.gaps_eq_add {capacity : Nat} {hub : Hub C} {received : List Gap}
    {found : List (Gap × Bool)} (h : hub.Alerted capacity received found) :
    hub.monitor.gaps = .ofNat (received.length + hub.alerts.waiting.length) + hub.droppedAlerts ∧
      (found.length < 2 ^ 64 → hub.monitor.gaps.toNat =
        received.length + hub.alerts.waiting.length + hub.droppedAlerts.toNat) := by
  have hlength : found.length = received.length + hub.alerts.waiting.length + refused found := by
    rw [← List.length_append, h.received_append_waiting]
    exact length_eq_queued_add_refused found
  constructor
  · rw [h.gaps_eq, h.dropped_eq, hlength, UInt64.ofNat_add]
  · intro hfound
    have hrefused : refused found < 2 ^ 64 := by omega
    rw [h.gaps_eq, h.dropped_eq, UInt64.toNat_ofNat_of_lt' hfound,
      UInt64.toNat_ofNat_of_lt' hrefused, hlength]

/-- A hub whose channel holds at least one alert keeps account of its alerts through every run
without a fault. -/
theorem keepsAlerts {capacity : Nat} (hcapacity : 0 < capacity) :
    ∃ (hub : Hub C) (notices : List Notice), create capacity = .ok (hub, notices) ∧
      ∀ mode actions, NoFault (hub.actAll mode actions).1 →
        hub.KeepsAlerts capacity mode actions := by
  obtain ⟨hub, notices, hcreate⟩ : ∃ (hub : Hub C) (notices : List Notice),
      create capacity = .ok (hub, notices) := ⟨_, _, if_neg (Nat.ne_of_gt hcapacity)⟩
  refine ⟨hub, notices, hcreate, ?_⟩
  intro mode actions hnofault
  have halerted := alerted_actAll hcreate actions
  rw [← actAll_of_noFault hnofault, ← detections_of_noFault hnofault] at halerted
  constructor
  case sendsAlert =>
    rintro before after now e rfl
    have hbefore := actAll_of_noFault hnofault.of_actAll_append
    have hearlier := alerted_actAll hcreate before
    obtain ⟨report, hreply, hdispatches⟩ := (hub.actAll .silent before).2.act_dispatch now e
    have hsends := hdispatches.sendsAlert hearlier.receivers_pos
    rw [hearlier.capacity_eq] at hsends
    have hfirst : NoFault (hub.actAll mode (before ++ [.operate (.dispatch now e)])).1 := by
      rw [List.append_cons] at hnofault
      exact hnofault.of_actAll_append
    refine ⟨report, ?_, ?_⟩
    · rw [actAll_of_noFault hnofault, hbefore, getElem?_actAll, hreply]
    · rw [actAll_of_noFault hfirst, hbefore, actAll_append_singleton]
      exact hsends
  case detections_eq => exact map_fst_detections capacity mode hub actions
  case received_append_waiting => exact halerted.received_append_waiting
  case length_waiting_le => exact halerted.length_waiting_le
  case hasReceiver => exact decide_eq_true halerted.receivers_pos
  case gaps_eq => exact halerted.gaps_eq_add.1
  case toNat_gaps => exact halerted.gaps_eq_add.2
  case unnoticed =>
    intro capacity' hub' notices' actions' hcreate' hactions
    exact actAll_sameButAlerts (.of_create hcreate' hcreate) mode hactions

/-- Four gaps where one alert can wait: two are dropped, one is received by someone who leaves, and
one still waits. -/
theorem keepsAlerts_one_waiting :
    ∃ (hub : Hub ScriptedConsumer) (notices : List Notice),
      create 1 = .ok (hub, notices) ∧
      let quote (sequence : Int64) : Action ScriptedConsumer :=
        .operate (.dispatch 0
          ⟨sequence, 0, .buy, ⟨100⟩, ⟨1⟩, .update, ⟨7⟩, ⟨1⟩, none⟩)
      let actions : List (Action ScriptedConsumer) :=
        [quote 1, quote 5, quote 9, .addReceiver, .takeAlert, .removeReceiver, quote 2,
          .operate (.forget ⟨⟨1⟩, ⟨7⟩⟩), quote 100, quote 102]
      let final := (hub.actAll .trapping actions).2
      hub.KeepsAlerts 1 .trapping actions ∧
        (hub.detections 1 .trapping actions).map Prod.snd = [true, false, true, false] ∧
        final.alerts.waiting = [⟨⟨⟨1⟩, ⟨7⟩⟩, 10, 2⟩] ∧ final.droppedAlerts = 2 ∧
        final.monitor.gaps = 4 := by
  obtain ⟨hub, notices, hcreate, hkeeps⟩ := keepsAlerts (C := ScriptedConsumer) Nat.zero_lt_one
  obtain rfl := create_eq_ok hcreate
  refine ⟨_, notices, hcreate, ?_⟩
  intro quote actions final
  refine ⟨hkeeps .trapping actions ?_, ?_⟩
  all_goals decide +kernel

end Hub

end DepthFeed

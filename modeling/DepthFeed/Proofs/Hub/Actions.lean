import DepthFeed.Proofs.Hub.Posts

/-!
# A hub and those who look into it

A hub shares the counters of its streams and the channel of its alerts. Between its operations, the
counters of a stream may be asked for or record a reconnect, and receivers of the alerts come,
receive and go.

* `Hub.Action`, `Hub.act`, `Hub.actAll`: what is done to a hub, one after the other, in either mode.
* `Hub.NoFault`, `Hub.actAll_of_noFault`: a run without a fault is the same in both modes.
* `Hub.handled`: the events that a run dispatched, each with its report.
-/

namespace DepthFeed

/-- An event that was dispatched, and the report of it. -/
structure Handled where
  event : Event
  report : Report

namespace Hub

variable {C : Type}

/-! ## Actions -/

/-- What is done to a hub, and to what it shares. -/
inductive Action (C : Type) where
  | operate (operation : Operation C)
  /-- Someone asks for the counters of a stream, which are made if need be. -/
  | track (stream : StreamId)
  | countReconnect (stream : StreamId)
  | addReceiver
  | removeReceiver
  /-- One of the receivers receives an alert, if one is waiting. -/
  | takeAlert

inductive Reply (C : Type) where
  | answered (answer : Answer C)
  | received (gap : Option Gap)
  | done

namespace Reply

def answer? : Reply C → Option (Answer C)
  | answered answer => some answer
  | _ => none

def received? : Reply C → Option Gap
  | received gap => gap
  | _ => none

/-- The subscription that an operation ended. -/
def ended? : Reply C → Option (Subscription C)
  | answered (.left ended) => ended
  | _ => none

/-- The gap that a dispatch detected. -/
def gap? : Reply C → Option Gap
  | answered (.dispatched (.ok report) _) => report.gap
  | _ => none

def isFault : Reply C → Bool
  | answered (.dispatched (.error _) _) => true
  | _ => false

end Reply

/-- No dispatch ended in a fault. -/
def NoFault (replies : List (Reply C)) : Prop := ∀ reply ∈ replies, reply.isFault = false

instance (replies : List (Reply C)) : Decidable (NoFault replies) :=
  inferInstanceAs (Decidable (∀ reply ∈ replies, reply.isFault = false))

variable [Consumer C]

/-- A hub after an operation. A dispatch that ends in a fault posts nothing. -/
def performIn (mode : OverflowMode) (hub : Hub C) : Operation C → Answer C × Hub C
  | .dispatch now e =>
    let out := hub.dispatch mode now e
    (.dispatched out.report (if out.report.isOk then hub.posts e else []), out.hub)
  | operation => hub.perform operation

def act (mode : OverflowMode) (hub : Hub C) : Action C → Reply C × Hub C
  | .operate operation =>
    let (answer, hub) := hub.performIn mode operation
    (.answered answer, hub)
  | .track stream => (.done, { hub with stats := (hub.stats.track stream).1 })
  | .countReconnect stream => (.done, (hub.countReconnect stream).1)
  | .addReceiver => (.done, hub.addAlertReceiver)
  | .removeReceiver => (.done, hub.removeAlertReceiver)
  | .takeAlert =>
    let (gap, hub) := hub.takeAlert
    (.received gap, hub)

def actAll (mode : OverflowMode) (hub : Hub C) (actions : List (Action C)) :
    List (Reply C) × Hub C :=
  runWith (act mode) hub actions

theorem actAll_append_singleton (mode : OverflowMode) (hub : Hub C) (actions : List (Action C))
    (last : Action C) :
    hub.actAll mode (actions ++ [last]) =
      ((hub.actAll mode actions).1 ++ [((hub.actAll mode actions).2.act mode last).1],
        ((hub.actAll mode actions).2.act mode last).2) := by
  simp [actAll, runWith_append]

/-- The reply to an action in the middle of a run. -/
theorem getElem?_actAll (mode : OverflowMode) (hub : Hub C) (before after : List (Action C))
    (action : Action C) :
    (hub.actAll mode (before ++ action :: after)).1[before.length]? =
      some ((hub.actAll mode before).2.act mode action).1 := by
  have hlength : (runWith (act mode) hub before).1.length = before.length :=
    length_runWith hub before
  unfold actAll
  rw [runWith_append, List.getElem?_append_right (Nat.le_of_eq hlength), hlength, Nat.sub_self]
  rfl

/-! ## Runs without a fault -/

omit [Consumer C] in
theorem NoFault.of_append {earlier later : List (Reply C)} (h : NoFault (earlier ++ later)) :
    NoFault earlier ∧ NoFault later := by
  constructor
  · intro reply hreply
    exact h reply (List.mem_append_left _ hreply)
  · intro reply hreply
    exact h reply (List.mem_append_right _ hreply)

theorem NoFault.of_actAll_append {mode : OverflowMode} {hub : Hub C}
    {before after : List (Action C)}
    (h : NoFault (hub.actAll mode (before ++ after)).1) : NoFault (hub.actAll mode before).1 := by
  unfold actAll at h ⊢
  rw [runWith_append] at h
  exact h.of_append.1

theorem dispatch_of_ok {mode : OverflowMode} {hub : Hub C} {now : Int64} {e : Event}
    {report : Report} (h : (hub.dispatch mode now e).report = .ok report) :
    hub.dispatch mode now e = hub.dispatch .silent now e := by
  unfold dispatch at h ⊢
  dsimp only at h ⊢
  cases hfound : (hub.monitor.observe mode e.stream e.sequence).2 with
  | error fault =>
    rw [hfound] at h
    cases h
  | ok gap => rw [← SequenceMonitor.observe_of_ok hfound, hfound]

/-- A dispatch that ends in a fault counted its event and noted its number, and did nothing else. -/
theorem dispatch_of_error {mode : OverflowMode} {hub : Hub C} {now : Int64} {e : Event}
    {fault : Fault} (h : (hub.dispatch mode now e).report = .error fault) :
    (hub.dispatch mode now e).hub =
      { hub with
        stats := (hub.stats.countMessage e.stream (latency now e)).1
        monitor := (hub.monitor.observe mode e.stream e.sequence).1 } := by
  unfold dispatch at h ⊢
  dsimp only at h ⊢
  cases hfound : (hub.monitor.observe mode e.stream e.sequence).2 with
  | error _ => rfl
  | ok gap =>
    rw [hfound] at h
    cases h

/-- An action that ends without a fault does the same in both modes. -/
theorem act_of_not_isFault {mode : OverflowMode} {hub : Hub C} {action : Action C}
    (h : (hub.act mode action).1.isFault = false) :
    hub.act mode action = hub.act .silent action := by
  cases action with
  | operate operation =>
    cases operation with
    | dispatch now e =>
      cases hreport : (hub.dispatch mode now e).report with
      | error fault => simp [act, performIn, hreport, Reply.isFault] at h
      | ok report => simp only [act, performIn, dispatch_of_ok hreport]
    | subscribe consumer interest => rfl
    | unsubscribe id => rfl
    | forget stream => rfl
  | track stream => rfl
  | countReconnect stream => rfl
  | addReceiver => rfl
  | removeReceiver => rfl
  | takeAlert => rfl

theorem actAll_of_noFault {mode : OverflowMode} {hub : Hub C} {actions : List (Action C)}
    (h : NoFault (hub.actAll mode actions).1) :
    hub.actAll mode actions = hub.actAll .silent actions := by
  induction actions using List.reverseRecOn with
  | nil => rfl
  | append_singleton actions last ih =>
    rw [actAll_append_singleton] at h
    obtain ⟨hearlier, hlast⟩ := h.of_append
    have hsame := act_of_not_isFault (hlast _ List.mem_cons_self)
    rw [actAll_append_singleton, actAll_append_singleton, hsame, ih hearlier]

/-! ## What was dispatched -/

def Action.event? : Action C → Option Event
  | .operate (.dispatch _ e) => some e
  | _ => none

def Action.handled? : Action C → Reply C → Option Handled
  | .operate (.dispatch _ e), .answered (.dispatched (.ok report) _) => some ⟨e, report⟩
  | _, _ => none

omit [Consumer C] in
/-- What dispatches nothing reports nothing. -/
theorem Action.dispatch_or (action : Action C) :
    (∃ now e, action = .operate (.dispatch now e)) ∨
      action.event? = none ∧ ∀ reply, action.handled? reply = none := by
  cases action with
  | operate operation =>
    cases operation with
    | dispatch now e => exact Or.inl ⟨now, e, rfl⟩
    | subscribe consumer interest => exact Or.inr ⟨rfl, fun _ => rfl⟩
    | unsubscribe id => exact Or.inr ⟨rfl, fun _ => rfl⟩
    | forget stream => exact Or.inr ⟨rfl, fun _ => rfl⟩
  | track stream => exact Or.inr ⟨rfl, fun _ => rfl⟩
  | countReconnect stream => exact Or.inr ⟨rfl, fun _ => rfl⟩
  | addReceiver => exact Or.inr ⟨rfl, fun _ => rfl⟩
  | removeReceiver => exact Or.inr ⟨rfl, fun _ => rfl⟩
  | takeAlert => exact Or.inr ⟨rfl, fun _ => rfl⟩

/-- A silent dispatch is answered with its report. -/
theorem act_dispatch (hub : Hub C) (now : Int64) (e : Event) :
    ∃ report, (hub.act .silent (.operate (.dispatch now e))).1 =
        .answered (.dispatched (.ok report) (hub.posts e)) ∧
      hub.Dispatches now e report (hub.act .silent (.operate (.dispatch now e))).2 := by
  obtain ⟨report, hreport, hdispatches⟩ := hub.dispatches now e
  refine ⟨report, ?_, hdispatches⟩
  simp [act, performIn, hreport, Except.isOk, Except.toBool]

/-- The events that some actions dispatch, each with its report. -/
def handled (mode : OverflowMode) (hub : Hub C) (actions : List (Action C)) : List Handled :=
  (actions.zip (hub.actAll mode actions).1).filterMap fun (action, reply) => action.handled? reply

theorem handled_append_singleton (mode : OverflowMode) (hub : Hub C) (actions : List (Action C))
    (last : Action C) :
    hub.handled mode (actions ++ [last]) =
      hub.handled mode actions ++
        (last.handled? ((hub.actAll mode actions).2.act mode last).1).toList := by
  have hlength : actions.length = (hub.actAll mode actions).1.length :=
    (length_runWith hub actions).symm
  unfold handled
  rw [actAll_append_singleton, List.zip_append hlength, List.filterMap_append]
  cases hhandled : last.handled? ((hub.actAll mode actions).2.act mode last).1 <;> simp [hhandled]

theorem handled_of_noFault {mode : OverflowMode} {hub : Hub C} {actions : List (Action C)}
    (h : NoFault (hub.actAll mode actions).1) :
    hub.handled mode actions = hub.handled .silent actions := by
  unfold handled
  rw [actAll_of_noFault h]

/-- Without a fault, all dispatched events are reported. -/
theorem event_handled (hub : Hub C) (actions : List (Action C)) :
    (hub.handled .silent actions).map Handled.event = actions.filterMap Action.event? := by
  induction actions using List.reverseRecOn with
  | nil => rfl
  | append_singleton actions last ih =>
    rw [handled_append_singleton, List.map_append, ih, List.filterMap_append]
    rcases last.dispatch_or with ⟨now, e, rfl⟩ | ⟨hevent, hhandled⟩
    · obtain ⟨report, hreply, -⟩ := (hub.actAll .silent actions).2.act_dispatch now e
      rw [hreply]
      rfl
    · rw [hhandled, List.filterMap_cons_none hevent]
      rfl

end Hub

end DepthFeed

import DepthFeed.Consumer.Script
import DepthFeed.Proofs.Hub.Reports

/-!
# The books balance

Dispatches are counted in four places: by the hub itself, by its monitor, by the counters of the
streams, and by the tallies of the consumers. After any run without a fault the four agree with each
other and with the reports, whoever else asked for counters or recorded reconnects meanwhile.

* `Hub.Balanced`: a hub whose counts are those of its reports, kept by `Hub.Balanced.act`.
* `Hub.Agrees`: counts that agree with each other, as those of a balanced hub do.
* `Hub.actAll_balances`: a run without a fault on a new hub.
-/

namespace DepthFeed

/-! ## One consumer -/

namespace Subscription

variable {C : Type} [Consumer C] (s : Subscription C) (e : Event)

theorem delivered_deliver :
    (s.deliver e).subscription.tally.delivered =
      s.tally.delivered + if (s.deliver e).isAccepted then 1 else 0 := by
  unfold deliver
  split
  · unfold Delivery.isAccepted
    cases hverdict : (Consumer.post s.consumer e).verdict <;> simp [Tally.count, hverdict]
  · exact (UInt64.add_zero _).symm

theorem failures_deliver :
    (s.deliver e).subscription.tally.failures =
      s.tally.failures + if (s.deliver e).isFailed then 1 else 0 := by
  unfold deliver
  split
  · unfold Delivery.isFailed Delivery.isAccepted
    cases hverdict : (Consumer.post s.consumer e).verdict <;> simp [Tally.count, hverdict]
  · exact (UInt64.add_zero _).symm

/-- Whoever wants an event takes it or fails on it, and nobody else does either. -/
theorem countP_deliver (subscriptions : List (Subscription C)) (e : Event) :
    (subscriptions.countP fun s => (s.deliver e).isAccepted) +
        (subscriptions.countP fun s => (s.deliver e).isFailed) =
      subscriptions.countP fun s => s.interest.Covers e.instrument := by
  induction subscriptions with
  | nil => rfl
  | cons s later ih =>
    have hone : ((if (s.deliver e).isAccepted then 1 else 0) +
        if (s.deliver e).isFailed then 1 else 0) =
          if s.interest.Covers e.instrument then 1 else 0 := by
      unfold Delivery.isFailed Delivery.isAccepted
      rw [verdict_deliver]
      by_cases hcovers : s.interest.Covers e.instrument
      · rw [if_pos hcovers, if_pos hcovers]
        by_cases haccepted : (Consumer.post s.consumer e).verdict = .accepted <;>
          simp [haccepted]
      · rw [if_neg hcovers, if_neg hcovers]
        rfl
    rw [List.countP_cons, List.countP_cons, List.countP_cons]
    simp only [decide_eq_true_eq]
    omega

end Subscription

namespace Hub

variable {C : Type}

/-- Everyone who ever subscribed: those who left, as they left, and those who are still there. -/
def everyone (replies : List (Reply C)) (hub : Hub C) : List (Subscription C) :=
  replies.filterMap Reply.ended? ++ hub.subscriptions

theorem everyone_of_not_ended {replies : List (Reply C)} {reply : Reply C}
    (hreply : reply.ended? = none) (hub : Hub C) :
    everyone (replies ++ [reply]) hub = everyone replies hub := by
  unfold everyone
  rw [List.filterMap_append, List.filterMap_cons_none hreply, List.filterMap_nil, List.append_nil]

theorem everyone_perm {replies : List (Reply C)} {reply : Reply C} {hub next : Hub C}
    (hreply : reply.ended? = none) (hnext : next.subscriptions = hub.subscriptions) :
    (everyone (replies ++ [reply]) next).Perm (everyone replies hub) := by
  rw [everyone_of_not_ended hreply, everyone, hnext]
  exact List.Perm.refl _

/-- Who leaves is still among those who ever subscribed. -/
theorem everyone_unsubscribe [Consumer C] (replies : List (Reply C)) (hub : Hub C)
    (id : SubscriptionId) :
    (everyone (replies ++ [.answered (.left (hub.unsubscribe id).1)])
      (hub.unsubscribe id).2.1).Perm (everyone replies hub) := by
  unfold Hub.unsubscribe
  split
  · exact everyone_perm rfl rfl
  · rename_i s hfound
    have hs : hub.subscriptions.find? (fun s => s.id = id) = some s := hfound
    obtain ⟨hid, earlier, later, hsplit, hearlier⟩ := List.find?_eq_some_iff_append.1 hs
    have herase : hub.subscriptions.eraseP (fun s => s.id = id) = earlier ++ later := by
      rw [hsplit, List.eraseP_append_right _ fun s' hs' => by simpa using hearlier s' hs']
      exact congrArg _ (List.eraseP_cons_of_pos hid)
    unfold everyone
    dsimp only
    rw [herase, hsplit, List.filterMap_append, List.append_assoc]
    refine List.Perm.append_left _ ?_
    show (s :: (earlier ++ later)).Perm (earlier ++ s :: later)
    exact List.perm_middle.symm

/-- The counts of a hub are those that its reports tell. -/
structure Balanced (hub : Hub C) (replies : List (Reply C)) (log : List Handled) : Prop where
  shows : hub.stats.Shows log
  gaps_eq : hub.monitor.gaps = .ofNat (Handled.gaps log).length
  missing_eq : hub.monitor.missing = .ofNat (Handled.missing log)
  dispatched_eq : hub.dispatched = .ofNat log.length
  delivered : IsLedger ((everyone replies hub).map fun s => s.tally.delivered)
    (log.map fun h => h.report.delivered).sum log.length
  failed : IsLedger ((everyone replies hub).map fun s => s.tally.failures)
    (log.map fun h => h.report.failed).sum log.length

namespace Balanced

variable {hub next : Hub C} {replies : List (Reply C)} {reply : Reply C} {log : List Handled}

theorem of_create {capacity : Nat} {notices : List Notice}
    (hcreate : create capacity = .ok (hub, notices)) : hub.Balanced [] [] := by
  obtain rfl := create_eq_ok hcreate
  exact ⟨.empty, rfl, rfl, rfl, .nil, .nil⟩

/-- What dispatches nothing keeps the balance if nobody's tally gets lost. -/
theorem keep (h : hub.Balanced replies log) (hshows : next.stats.Shows log)
    (hgaps : next.monitor.gaps = hub.monitor.gaps)
    (hmissing : next.monitor.missing = hub.monitor.missing)
    (hdispatched : next.dispatched = hub.dispatched)
    (hperm : (everyone (replies ++ [reply]) next).Perm (everyone replies hub)) :
    next.Balanced (replies ++ [reply]) log := by
  constructor
  · exact hshows
  · exact hgaps.trans h.gaps_eq
  · exact hmissing.trans h.missing_eq
  · exact hdispatched.trans h.dispatched_eq
  · exact h.delivered.perm (hperm.map _)
  · exact h.failed.perm (hperm.map _)

variable [Consumer C]

theorem subscribe (h : hub.Balanced replies log) (consumer : C) (interest : Interest)
    (hreply : reply.ended? = none) :
    (hub.subscribe consumer interest).2.1.Balanced (replies ++ [reply]) log := by
  have heveryone : everyone (replies ++ [reply]) (hub.subscribe consumer interest).2.1 =
      everyone replies hub ++ [⟨⟨hub.nextId⟩, interest, consumer, ⟨0, 0, 0⟩⟩] := by
    rw [everyone_of_not_ended hreply]
    exact (List.append_assoc _ _ _).symm
  constructor
  · exact h.shows
  · exact h.gaps_eq
  · exact h.missing_eq
  · exact h.dispatched_eq
  · rw [heveryone, List.map_append]
    exact h.delivered.append_zero
  · rw [heveryone, List.map_append]
    exact h.failed.append_zero

/-- Who leaves takes its tally along. -/
theorem unsubscribe (h : hub.Balanced replies log) (id : SubscriptionId) :
    (hub.unsubscribe id).2.1.Balanced
      (replies ++ [.answered (.left (hub.unsubscribe id).1)]) log := by
  have hperm := everyone_unsubscribe replies hub id
  unfold Hub.unsubscribe at hperm ⊢
  split
  · rename_i hnone
    rw [hnone] at hperm
    exact h.keep h.shows rfl rfl rfl hperm
  · rename_i s hsome
    rw [hsome] at hperm
    exact h.keep h.shows rfl rfl rfl hperm

/-- What a dispatch adds to the tallies of the consumers that are there. -/
theorem isLedger_deliver {read : Subscription C → UInt64} {e : Event}
    {counts : Subscription C → Bool} {total bound : Nat}
    (hread : ∀ s, read (s.deliver e).subscription = read s + if counts s then 1 else 0)
    (h : IsLedger ((everyone replies hub).map read) total bound)
    (hsubscriptions :
      next.subscriptions = hub.subscriptions.map fun s => (s.deliver e).subscription) :
    IsLedger ((everyone replies next).map read) (total + hub.subscriptions.countP counts)
      (bound + 1) := by
  unfold everyone at h ⊢
  rw [List.map_append] at h ⊢
  obtain ⟨gone, there, rfl, hgone, hthere⟩ := IsLedger.append_iff.1 h
  rw [hsubscriptions, List.map_map, Nat.add_assoc]
  refine IsLedger.append_iff.2 ⟨gone, _, rfl, hgone.mono (Nat.le_succ bound), ?_⟩
  exact hthere.countAlong hread

/-- The counters of the event's stream count the event, and its gap. -/
theorem shows_dispatch {now : Int64} {e : Event} {report : Report} (hshows : hub.stats.Shows log)
    (hdispatches : hub.Dispatches now e report next) :
    next.stats.Shows (log ++ [⟨e, report⟩]) := by
  have hcounts := hshows.counts e.stream
  rcases hdispatches.gap_cases with ⟨hgap, -, -, hstats, -⟩ | ⟨gap, hgap, -, -, -, hstats, -⟩
  · rw [hstats]
    exact hshows.append (fun other => StatsTable.get?_record _ _ other _)
      (hcounts.message hgap _)
  · rw [hstats]
    exact hshows.append (fun other => StatsTable.Shows.get?_countGap_countMessage _ _ other _ _)
      (hcounts.messageAndGap hgap _)

/-- The monitor counts the gap of the event. -/
theorem monitor_dispatch {now : Int64} {e : Event} {report : Report}
    (hgaps : hub.monitor.gaps = .ofNat (Handled.gaps log).length)
    (hmissing : hub.monitor.missing = .ofNat (Handled.missing log))
    (hdispatches : hub.Dispatches now e report next) :
    next.monitor.gaps = .ofNat (Handled.gaps (log ++ [⟨e, report⟩])).length ∧
      next.monitor.missing = .ofNat (Handled.missing (log ++ [⟨e, report⟩])) := by
  rw [Handled.gaps_append_singleton, Handled.missing_append_singleton]
  rcases hdispatches.gap_cases with
    ⟨hgap, hgaps', hmissing', -⟩ | ⟨gap, hgap, -, hgaps', hmissing', -⟩
  · rw [hgaps', hmissing', hgap, Option.toList_none, List.append_nil]
    exact ⟨hgaps, hmissing⟩
  · rw [hgaps', hmissing', hgap, hgaps, hmissing, List.length_append, UInt64.ofNat_add,
      UInt64.ofNat_add]
    refine ⟨rfl, ?_⟩
    exact congrArg _ UInt64.ofNat_toNat.symm

/-- A dispatched event is counted in all four places. -/
theorem dispatch (h : hub.Balanced replies log) {now : Int64} {e : Event} {report : Report}
    (hreply : reply.ended? = none) (hdispatches : hub.Dispatches now e report next) :
    next.Balanced (replies ++ [reply]) (log ++ [⟨e, report⟩]) := by
  have hdelivered := isLedger_deliver (fun s => s.delivered_deliver e) h.delivered
    hdispatches.subscriptions_eq
  have hfailed := isLedger_deliver (fun s => s.failures_deliver e) h.failed
    hdispatches.subscriptions_eq
  have hmonitor := monitor_dispatch h.gaps_eq h.missing_eq hdispatches
  have hlength : (log ++ [(⟨e, report⟩ : Handled)]).length = log.length + 1 := List.length_append
  constructor
  · exact shows_dispatch h.shows hdispatches
  · exact hmonitor.1
  · exact hmonitor.2
  · rw [hdispatches.dispatched_eq, h.dispatched_eq, hlength, UInt64.ofNat_add]
    rfl
  · rw [everyone_of_not_ended hreply, hlength, List.map_append, List.sum_append]
    rwa [← hdispatches.delivered_eq] at hdelivered
  · rw [everyone_of_not_ended hreply, hlength, List.map_append, List.sum_append]
    rwa [← hdispatches.failed_eq] at hfailed

/-- Whatever is done to a balanced hub, in silent mode, leaves it balanced. -/
theorem act (h : hub.Balanced replies log) (action : Action C) :
    (hub.act .silent action).2.Balanced (replies ++ [(hub.act .silent action).1])
      (log ++ (action.handled? (hub.act .silent action).1).toList) := by
  rcases action.dispatch_or with ⟨now, e, rfl⟩ | ⟨hevent, hhandled⟩
  · obtain ⟨report, hreply, hdispatches⟩ := hub.act_dispatch now e
    rw [hreply]
    exact h.dispatch rfl hdispatches
  · rw [hhandled, Option.toList_none, List.append_nil]
    cases action with
    | operate operation =>
      cases operation with
      | dispatch now e => cases hevent
      | subscribe consumer interest => exact h.subscribe consumer interest rfl
      | unsubscribe id => exact h.unsubscribe id
      | forget stream => exact h.keep h.shows rfl rfl rfl (everyone_perm rfl rfl)
    | track stream => exact h.keep (h.shows.track stream) rfl rfl rfl (everyone_perm rfl rfl)
    | countReconnect stream =>
      exact h.keep (h.shows.countReconnect stream) rfl rfl rfl (everyone_perm rfl rfl)
    | addReceiver => exact h.keep h.shows rfl rfl rfl (everyone_perm rfl rfl)
    | removeReceiver =>
      simp only [Hub.act, removeAlertReceiver]
      split <;> exact h.keep h.shows rfl rfl rfl (everyone_perm rfl rfl)
    | takeAlert => exact h.keep h.shows rfl rfl rfl (everyone_perm rfl rfl)

end Balanced

/-! ## Runs -/

/-- The counts of a hub agree with each other and with its reports. Each of them is a word, so they
agree exactly as long as few enough things were counted, and modulo `2 ^ 64` after that. -/
structure Agrees (hub : Hub C) (replies : List (Reply C)) (log : List Handled) : Prop where
  streams : hub.stats.Shows log
  dispatched_eq : hub.dispatched = .ofNat log.length
  messages : AddUp (hub.stats.toList.map fun row => row.2.messages) hub.dispatched.toNat log.length
  gaps : AddUp (hub.stats.toList.map fun row => row.2.gaps) hub.monitor.gaps.toNat
    (Handled.gaps log).length
  missing : AddUp (hub.stats.toList.map fun row => row.2.missing) hub.monitor.missing.toNat
    (Handled.missing log)
  delivered : AddUp ((everyone replies hub).map fun s => s.tally.delivered)
    (log.map fun h => h.report.delivered).sum log.length
  failed : AddUp ((everyone replies hub).map fun s => s.tally.failures)
    (log.map fun h => h.report.failed).sum log.length

theorem Balanced.agrees {hub : Hub C} {replies : List (Reply C)} {log : List Handled}
    (h : hub.Balanced replies log) : hub.Agrees replies log where
  streams := h.shows
  dispatched_eq := h.dispatched_eq
  messages := by
    have hledger := h.shows.isLedger fun {_ told} hcounts =>
      hcounts.messages_eq.trans (congrArg _ (Handled.length_eq_sum told))
    rw [← Handled.length_eq_sum] at hledger
    rw [h.dispatched_eq]
    exact hledger.addUp.word
  gaps := by
    have hledger := h.shows.isLedger fun {_ told} hcounts =>
      hcounts.gaps_eq.trans (congrArg _ (Handled.length_gaps_eq_sum told))
    rw [← Handled.length_gaps_eq_sum] at hledger
    rw [h.gaps_eq]
    exact hledger.addUp.word
  missing := by
    have hledger := h.shows.isLedger fun {_ told} hcounts =>
      hcounts.missing_eq.trans (congrArg _ (Handled.missing_eq_sum told))
    rw [← Handled.missing_eq_sum] at hledger
    rw [h.missing_eq]
    exact hledger.addUp.word
  delivered := h.delivered.addUp
  failed := h.failed.addUp

variable [Consumer C] {capacity : Nat} {hub : Hub C} {notices : List Notice}

theorem balanced_actAll (hcreate : create capacity = .ok (hub, notices))
    (actions : List (Action C)) :
    (hub.actAll .silent actions).2.Balanced (hub.actAll .silent actions).1
      (hub.handled .silent actions) := by
  induction actions using List.reverseRecOn with
  | nil => exact .of_create hcreate
  | append_singleton actions last ih =>
    rw [actAll_append_singleton, handled_append_singleton]
    exact ih.act last

/-- The report of each dispatch of a run. -/
theorem reply_dispatch (hub : Hub C) (before after : List (Action C)) (now : Int64) (e : Event) :
    ∃ report, (hub.actAll .silent (before ++ .operate (.dispatch now e) :: after)).1[
        before.length]? =
          some (.answered (.dispatched (.ok report) ((hub.actAll .silent before).2.posts e))) ∧
      report.delivered + report.failed =
        (hub.actAll .silent before).2.subscriptions.countP fun s =>
          s.interest.Covers e.instrument := by
  obtain ⟨report, hreply, hdispatches⟩ := (hub.actAll .silent before).2.act_dispatch now e
  refine ⟨report, ?_, ?_⟩
  · rw [getElem?_actAll, hreply]
  · rw [hdispatches.delivered_eq, hdispatches.failed_eq]
    exact Subscription.countP_deliver _ e

/-- After a run without a fault on a new hub, every dispatch has its report, which tells who wanted
the event, and the counts of the hub, of its monitor, of its streams and of its consumers agree with
each other and with the reports. -/
theorem actAll_balances (hcreate : create capacity = .ok (hub, notices)) {mode : OverflowMode}
    {actions : List (Action C)} (hnofault : NoFault (hub.actAll mode actions).1) :
    (hub.handled mode actions).map Handled.event = actions.filterMap Action.event? ∧
      (hub.actAll mode actions).2.Agrees (hub.actAll mode actions).1 (hub.handled mode actions) ∧
      ∀ before now e after, actions = before ++ .operate (.dispatch now e) :: after →
        ∃ report,
          (hub.actAll mode actions).1[before.length]? =
            some (.answered (.dispatched (.ok report) ((hub.actAll mode before).2.posts e))) ∧
          report.delivered + report.failed =
            (hub.actAll mode before).2.subscriptions.countP fun s =>
              s.interest.Covers e.instrument := by
  refine ⟨?_, ?_, ?_⟩
  · rw [handled_of_noFault hnofault]
    exact event_handled hub actions
  · rw [handled_of_noFault hnofault, actAll_of_noFault hnofault]
    exact (balanced_actAll hcreate actions).agrees
  · rintro before now e after rfl
    rw [actAll_of_noFault hnofault, actAll_of_noFault hnofault.of_actAll_append]
    exact reply_dispatch hub before after now e

/-- A stream whose first mention is a reconnect, a consumer that leaves, one that breaks down, and a
gap whose alert there is no room for. -/
theorem actAll_balances_two_streams :
    ∃ (hub : Hub ScriptedConsumer) (notices : List Notice),
      create 1 = .ok (hub, notices) ∧
      let quote (sequence : Int64) (instrument : Int32) : Event :=
        ⟨sequence, 0, .buy, ⟨100⟩, ⟨1⟩, .update, ⟨instrument⟩, ⟨1⟩, none⟩
      let steady : ScriptedConsumer := ⟨"steady", .accept, [], none, []⟩
      let shaky : ScriptedConsumer := ⟨"shaky", .accept, [(5, .crash)], none, []⟩
      let actions : List (Action ScriptedConsumer) :=
        [.countReconnect ⟨⟨1⟩, ⟨7⟩⟩, .operate (.subscribe steady .all),
          .operate (.subscribe shaky (.only ⟨7⟩)), .operate (.dispatch 9 (quote 1 7)),
          .operate (.dispatch 3 (quote 5 7)), .operate (.unsubscribe (idAfter 0)),
          .track ⟨⟨1⟩, ⟨8⟩⟩, .operate (.dispatch (-4) (quote 9 8)),
          .operate (.dispatch 0 (quote 7 7))]
      let final := (hub.actAll .trapping actions).2
      NoFault (hub.actAll .trapping actions).1 ∧
        final.Agrees (hub.actAll .trapping actions).1 (hub.handled .trapping actions) ∧
        final.dispatched = 4 ∧ final.monitor.gaps = 2 ∧ final.droppedAlerts = 1 ∧
        (final.stats.get? ⟨⟨1⟩, ⟨7⟩⟩).map (fun c => [c.messages, c.gaps, c.missing, c.reconnects]) =
          some [3, 2, 4, 1] ∧
        (everyone (hub.actAll .trapping actions).1 final).map (·.tally) =
          [⟨2, 0, 0⟩, ⟨2, 1, 1⟩] := by
  have hcreate : create 1 = .ok ((_ : Hub ScriptedConsumer), _) := rfl
  refine ⟨_, _, hcreate, ?_⟩
  intro quote steady shaky actions final
  refine ⟨?nofault, (actAll_balances hcreate ?nofault).2.1, ?counts⟩
  case nofault => decide +kernel
  case counts => decide +kernel

end Hub

end DepthFeed

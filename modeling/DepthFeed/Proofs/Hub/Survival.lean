import Mathlib.Algebra.Order.BigOperators.Group.List
import DepthFeed.Consumer.Script
import DepthFeed.Proofs.Hub.Balance
import DepthFeed.Proofs.Sequence.Memory

/-!
# How far a hub gets in trapping mode

A dispatch moves counters by one, adds a latency to a sum that wraps around, and adds the numbers
that a gap skips to a sum that does not. Over fewer than `2 ^ 64` events no counter that moves by one
overflows, so only that last sum can end a dispatch in a fault, and it does so before any consumer
is given the event. So far a trapping run survives exactly as long as the gaps that its events open
skip fewer than `2 ^ 64` numbers, all streams taken together.

* `Hub.gapsOf`, `Hub.skipped`: the gaps of some actions, and how many numbers they skip.
* `Hub.Survives`: every event of a trapping run was posted and counted.
* `Hub.Falters`: a dispatch that ends in a fault, with its event posted to nobody.
* `Hub.survives_iff`: a run of fewer than `2 ^ 64` events survives exactly if what it skips fits a
  word, and falters on the event that makes it too much.
* `Hub.survives_of_short_gaps`: so do fewer than `2 ^ 32` events whose gaps are no wider than that.
* `Hub.not_survives_always`: three jumps through all numbers are too much.
-/

namespace DepthFeed

namespace Hub

open SequenceMonitor (FitsWords Remembers gapsSinceReset totalDistance)

variable {C : Type}

/-! ## What the monitor of a hub is told -/

def Action.watched? : Action C → Option SequenceMonitor.Operation
  | .operate (.dispatch _ e) => some (.observe e.stream e.sequence)
  | .operate (.forget stream) => some (.forget stream)
  | _ => none

def watched (actions : List (Action C)) : List SequenceMonitor.Operation :=
  actions.filterMap Action.watched?

/-- The gaps that the events of some actions open. -/
def gapsOf (actions : List (Action C)) : List Gap := gapsSinceReset (watched actions)

/-- How many numbers the events of some actions skip, all streams taken together. -/
def skipped (actions : List (Action C)) : Nat := totalDistance (gapsOf actions)

theorem watched_append_singleton (actions : List (Action C)) (last : Action C) :
    watched (actions ++ [last]) = watched actions ++ last.watched?.toList := by
  rw [watched, List.filterMap_append]
  cases hlast : last.watched? <;> simp [watched, hlast]

/-- An event opens one gap at most, and nothing else opens any. -/
theorem dispatch_or_gapsOf_eq (actions : List (Action C)) (last : Action C) :
    (∃ now e, last = .operate (.dispatch now e) ∧
        ∃ found : Option Gap, gapsOf (actions ++ [last]) = gapsOf actions ++ found.toList) ∨
      gapsOf (actions ++ [last]) = gapsOf actions := by
  have hopened : ∀ {operation : SequenceMonitor.Operation}, last.watched? = some operation →
      operation ≠ .reset → gapsOf (actions ++ [last]) = gapsOf actions ++
        (SequenceMonitor.openedBy (watched actions) operation).toList := by
    intro operation hlast hreset
    rw [gapsOf, watched_append_singleton, hlast, Option.toList_some,
      SequenceMonitor.gapsSinceReset_append_singleton, if_neg hreset]
    rfl
  have hnone : last.watched? = none → gapsOf (actions ++ [last]) = gapsOf actions := by
    intro hlast
    rw [gapsOf, watched_append_singleton, hlast, Option.toList_none, List.append_nil]
    rfl
  cases last with
  | operate operation =>
    cases operation with
    | dispatch now e =>
      exact Or.inl ⟨now, e, rfl, _, hopened rfl SequenceMonitor.Operation.noConfusion⟩
    | forget stream =>
      refine Or.inr ((hopened rfl SequenceMonitor.Operation.noConfusion).trans ?_)
      exact List.append_nil _
    | subscribe consumer interest => exact Or.inr (hnone rfl)
    | unsubscribe id => exact Or.inr (hnone rfl)
  | track stream => exact Or.inr (hnone rfl)
  | countReconnect stream => exact Or.inr (hnone rfl)
  | addReceiver => exact Or.inr (hnone rfl)
  | removeReceiver => exact Or.inr (hnone rfl)
  | takeAlert => exact Or.inr (hnone rfl)

theorem numbers_watched (actions : List (Action C)) :
    (watched actions).filterMap SequenceMonitor.Operation.number? =
      (actions.filterMap Action.event?).map Event.sequence := by
  rw [watched, List.filterMap_filterMap, List.map_filterMap]
  refine List.filterMap_congr fun action _ => ?_
  cases action with
  | operate operation => cases operation <;> rfl
  | _ => rfl

theorem length_gapsOf_le (actions : List (Action C)) :
    (gapsOf actions).length ≤ (actions.filterMap Action.event?).length := by
  have hle := SequenceMonitor.length_gapsSinceReset_le (watched actions)
  rwa [numbers_watched, List.length_map] at hle

/-- Fewer events than a word counts open gaps that fit their words if what they skip does. -/
theorem fitsWords_of_skipped_lt {actions : List (Action C)}
    (hcount : (actions.filterMap Action.event?).length < 2 ^ 64)
    (hskipped : skipped actions < 2 ^ 64) (mode : OverflowMode) :
    FitsWords mode (gapsOf actions) :=
  fun _ => ⟨(length_gapsOf_le actions).trans_lt hcount, hskipped⟩

theorem fitsWords_of_append_singleton {mode : OverflowMode} {actions : List (Action C)}
    {last : Action C} (hfits : FitsWords mode (gapsOf (actions ++ [last]))) :
    FitsWords mode (gapsOf actions) := by
  rcases dispatch_or_gapsOf_eq actions last with ⟨now, e, -, found, hgaps⟩ | hsame
  · rw [hgaps] at hfits
    exact hfits.of_append
  · rwa [hsame] at hfits

theorem length_events_lt_of_append {earlier later : List (Action C)} {n : Nat}
    (hcount : ((earlier ++ later).filterMap Action.event?).length < n) :
    (earlier.filterMap Action.event?).length < n := by
  rw [List.filterMap_append, List.length_append] at hcount
  omega

variable [Consumer C] {hub : Hub C} {actions : List (Action C)}

/-! ## One action -/

/-- Where the monitor finds no fault, a dispatch comes to its end and leaves the monitor at that. -/
theorem dispatch_of_observe_ok {mode : OverflowMode} {e : Event} {found : Option Gap}
    (hfound : (hub.monitor.observe mode e.stream e.sequence).2 = .ok found) (now : Int64) :
    (∃ report, (hub.dispatch mode now e).report = .ok report) ∧
      (hub.dispatch mode now e).hub.monitor = (hub.monitor.observe mode e.stream e.sequence).1 := by
  unfold dispatch
  dsimp only
  rw [hfound]
  cases found with
  | none => exact ⟨⟨_, rfl⟩, rfl⟩
  | some gap =>
    obtain ⟨alerts, dropped, hnoted, -⟩ := noteGap_frame
      { hub with
        stats := (hub.stats.countMessage e.stream (latency now e)).1
        monitor := (hub.monitor.observe mode e.stream e.sequence).1 } gap
    dsimp only [noteGap?]
    rw [hnoted]
    exact ⟨⟨_, rfl⟩, rfl⟩

/-- A dispatch whose gap makes the sum of the skipped numbers too large. The event was counted on its
stream, and the monitor moved on and counted the gap; the event is posted to nobody, no alert is
sent, and the dispatch is not counted. -/
structure Falters (hub : Hub C) (now : Int64) (e : Event) : Prop where
  report_eq : (hub.dispatch .trapping now e).report = .error (.overflow .add)
  hub_eq : (hub.dispatch .trapping now e).hub =
    { hub with
      stats := (hub.stats.countMessage e.stream (latency now e)).1
      monitor :=
        { hub.monitor with
          cursors := hub.monitor.cursors.insert e.stream e.sequence
          gaps := hub.monitor.gaps + 1 } }

/-- As long as the gaps fit their words, an action ends without a fault and is remembered. -/
theorem remembers_act (h : hub.monitor.Remembers (watched actions)) {last : Action C}
    (hfits : FitsWords .trapping (gapsOf (actions ++ [last]))) :
    (hub.act .trapping last).1.isFault = false ∧
      (hub.act .trapping last).2.monitor.Remembers (watched (actions ++ [last])) := by
  rw [gapsOf, watched_append_singleton] at hfits
  rw [watched_append_singleton]
  have hquiet : last.watched? = none →
      hub.monitor.Remembers (watched actions ++ last.watched?.toList) := by
    intro hnone
    rwa [hnone, Option.toList_none, List.append_nil]
  cases last with
  | operate operation =>
    cases operation with
    | subscribe consumer interest => exact ⟨rfl, hquiet rfl⟩
    | unsubscribe id =>
      refine ⟨rfl, ?_⟩
      simp only [act, performIn, perform, unsubscribe]
      split <;> exact hquiet rfl
    | forget stream =>
      have hnext : (hub.monitor.perform .trapping (.forget stream)).2.Remembers
          (watched actions ++ [.forget stream]) := (h.perform _ hfits).2
      exact ⟨rfl, hnext⟩
    | dispatch now e =>
      obtain ⟨hfound, hnext⟩ :
          (hub.monitor.observe .trapping e.stream e.sequence).2 = .ok _ ∧ _ :=
        h.observe e.stream e.sequence hfits
      obtain ⟨⟨report, hreport⟩, hmonitor⟩ := dispatch_of_observe_ok hfound now
      rw [← hmonitor] at hnext
      refine ⟨?_, hnext⟩
      simp only [act, performIn, hreport]
      rfl
  | track stream => exact ⟨rfl, hquiet rfl⟩
  | countReconnect stream => exact ⟨rfl, hquiet rfl⟩
  | addReceiver => exact ⟨rfl, hquiet rfl⟩
  | removeReceiver =>
    refine ⟨rfl, ?_⟩
    simp only [act, removeAlertReceiver]
    split <;> exact hquiet rfl
  | takeAlert => exact ⟨rfl, hquiet rfl⟩

/-- Only a dispatch can make what is skipped too much for a word, and then it falters, unless there
are too many gaps already. -/
theorem falters_of_overflow (h : hub.monitor.Remembers (watched actions))
    (hfits : FitsWords .trapping (gapsOf actions)) {last : Action C}
    (hcount : (gapsOf (actions ++ [last])).length < 2 ^ 64)
    (hover : 2 ^ 64 ≤ skipped (actions ++ [last])) :
    ∃ now e, last = .operate (.dispatch now e) ∧ hub.Falters now e := by
  obtain ⟨hearlier, htotal⟩ := hfits rfl
  rcases dispatch_or_gapsOf_eq actions last with ⟨now, e, rfl, found, hgaps⟩ | hsame
  · refine ⟨now, e, rfl, ?_⟩
    cases found with
    | none =>
      rw [Option.toList_none, List.append_nil] at hgaps
      rw [skipped, hgaps] at hover
      exact absurd htotal (Nat.not_lt_of_ge hover)
    | some gap =>
      have hroom : hub.monitor.gaps.toNat + 1 < 2 ^ 64 := by
        rw [hgaps, Option.toList_some, List.length_append, List.length_singleton] at hcount
        have hgaps_eq : hub.monitor.gaps = .ofNat (gapsOf actions).length := h.gaps_eq
        rw [hgaps_eq, UInt64.toNat_ofNat_of_lt' hearlier]
        exact hcount
      have hwords : ¬ FitsWords .trapping
          (gapsSinceReset (watched actions ++ [.observe e.stream e.sequence])) := by
        rw [skipped, gapsOf, watched_append_singleton] at hover
        exact fun hnext => absurd (hnext rfl).2 (Nat.not_lt_of_ge hover)
      have hfound := h.observe_overflows hfits hwords
      rw [if_pos hroom] at hfound
      have hreport : (hub.dispatch .trapping now e).report = .error (.overflow .add) := by
        unfold dispatch
        dsimp only
        rw [hfound]
      refine ⟨hreport, ?_⟩
      rw [dispatch_of_error hreport, hfound]
  · rw [skipped, hsame] at hover
    exact absurd htotal (Nat.not_lt_of_ge hover)

/-! ## Runs -/

/-- A trapping run whose dispatches all come to their end: each event is posted to the consumers that
want it, and counted. -/
structure Survives (hub : Hub C) (actions : List (Action C)) : Prop where
  noFault : NoFault (hub.actAll .trapping actions).1
  dispatched_eq : (actions.filterMap Action.event?).length < 2 ^ 64 →
    (hub.actAll .trapping actions).2.dispatched.toNat = (actions.filterMap Action.event?).length
  posted (before : List (Action C)) (now : Int64) (e : Event) (after : List (Action C)) :
    actions = before ++ .operate (.dispatch now e) :: after →
      ∃ report,
        (hub.actAll .trapping actions).1[before.length]? =
          some (.answered (.dispatched (.ok report) ((hub.actAll .trapping before).2.posts e))) ∧
        report.delivered + report.failed =
          (hub.actAll .trapping before).2.subscriptions.countP fun s =>
            s.interest.Covers e.instrument

variable {capacity : Nat} {notices : List Notice}

/-- As long as the gaps fit their words, no dispatch ends in a fault. -/
theorem remembers_actAll (hcreate : create capacity = .ok (hub, notices))
    (hfits : FitsWords .trapping (gapsOf actions)) :
    NoFault (hub.actAll .trapping actions).1 ∧
      (hub.actAll .trapping actions).2.monitor.Remembers (watched actions) := by
  induction actions using List.reverseRecOn with
  | nil =>
    obtain rfl := create_eq_ok hcreate
    exact ⟨List.forall_mem_nil _, .empty⟩
  | append_singleton actions last ih =>
    obtain ⟨hnofault, hremembers⟩ := ih (fitsWords_of_append_singleton hfits)
    obtain ⟨hlast, hnext⟩ := remembers_act hremembers hfits
    rw [actAll_append_singleton]
    refine ⟨List.forall_mem_append.2 ⟨hnofault, ?_⟩, hnext⟩
    exact List.forall_mem_singleton.2 hlast

/-- A run falters on the action that makes what is skipped too much for a word. -/
theorem falters_actAll (hcreate : create capacity = .ok (hub, notices)) {last : Action C}
    (hcount : ((actions ++ [last]).filterMap Action.event?).length < 2 ^ 64)
    (hfits : skipped actions < 2 ^ 64) (hover : 2 ^ 64 ≤ skipped (actions ++ [last])) :
    ∃ now e, last = .operate (.dispatch now e) ∧ (hub.actAll .trapping actions).2.Falters now e := by
  have hwords := fitsWords_of_skipped_lt (length_events_lt_of_append hcount) hfits .trapping
  exact falters_of_overflow (remembers_actAll hcreate hwords).2 hwords
    ((length_gapsOf_le _).trans_lt hcount) hover

/-- Without a fault, what is skipped fits a word. -/
theorem skipped_lt_of_noFault (hcreate : create capacity = .ok (hub, notices))
    (hcount : (actions.filterMap Action.event?).length < 2 ^ 64)
    (hnofault : NoFault (hub.actAll .trapping actions).1) : skipped actions < 2 ^ 64 := by
  induction actions using List.reverseRecOn with
  | nil => exact Nat.two_pow_pos 64
  | append_singleton actions last ih =>
    rw [actAll_append_singleton] at hnofault
    obtain ⟨hearlier, hlast⟩ := hnofault.of_append
    have hfits := ih (length_events_lt_of_append hcount) hearlier
    by_contra hover
    obtain ⟨now, e, rfl, hfalters⟩ :=
      falters_actAll hcreate hcount hfits (Nat.le_of_not_lt hover)
    have hreply := hlast _ List.mem_cons_self
    simp only [act, performIn, hfalters.report_eq] at hreply
    cases hreply

theorem survives_of_skipped_lt (hcreate : create capacity = .ok (hub, notices))
    (hcount : (actions.filterMap Action.event?).length < 2 ^ 64)
    (hfits : skipped actions < 2 ^ 64) : hub.Survives actions := by
  have hnofault := (remembers_actAll hcreate (fitsWords_of_skipped_lt hcount hfits _)).1
  constructor
  · exact hnofault
  · intro _
    have hlength : (hub.handled .silent actions).length =
        (actions.filterMap Action.event?).length := by
      rw [← event_handled hub actions, List.length_map]
    rw [actAll_of_noFault hnofault, (balanced_actAll hcreate actions).dispatched_eq, hlength]
    exact UInt64.toNat_ofNat_of_lt' hcount
  · rintro before now e after rfl
    rw [actAll_of_noFault hnofault, actAll_of_noFault hnofault.of_actAll_append]
    exact reply_dispatch hub before after now e

/-- Fewer than `2 ^ 32` events survive whose gaps skip no more than `2 ^ 32` numbers each. -/
theorem survives_of_short_gaps (hcreate : create capacity = .ok (hub, notices))
    (hcount : (actions.filterMap Action.event?).length < 2 ^ 32)
    (hshort : ∀ gap ∈ gapsOf actions, gap.distance ≤ 2 ^ 32) : hub.Survives actions := by
  refine survives_of_skipped_lt hcreate (hcount.trans (by decide)) ?_
  have hlength := length_gapsOf_le actions
  have htotal : skipped actions ≤ (gapsOf actions).length * 2 ^ 32 := by
    have hsum := List.sum_le_card_nsmul ((gapsOf actions).map Gap.distance) (2 ^ 32)
      (by simpa using hshort)
    rwa [List.length_map, nsmul_eq_mul] at hsum
  omega

/-- On a new hub, a trapping run of fewer than `2 ^ 64` events survives exactly if the gaps that
they open skip fewer than `2 ^ 64` numbers, and it falters on the event that makes it too many. -/
theorem survives_iff (hcreate : create capacity = .ok (hub, notices))
    (hcount : (actions.filterMap Action.event?).length < 2 ^ 64) :
    (hub.Survives actions ↔ skipped actions < 2 ^ 64) ∧
      ∀ before now e after, actions = before ++ .operate (.dispatch now e) :: after →
        hub.Survives before → 2 ^ 64 ≤ skipped (before ++ [.operate (.dispatch now e)]) →
        (hub.actAll .trapping before).2.Falters now e := by
  constructor
  · constructor
    · exact fun h => skipped_lt_of_noFault hcreate hcount h.noFault
    · exact survives_of_skipped_lt hcreate hcount
  · rintro before now e after rfl h hover
    have hupto : ((before ++ [Action.operate (.dispatch now e)]).filterMap
        Action.event?).length < 2 ^ 64 := by
      rw [List.append_cons] at hcount
      exact length_events_lt_of_append hcount
    have hfits := skipped_lt_of_noFault hcreate (length_events_lt_of_append hupto) h.noFault
    obtain ⟨_, _, hlast, hfalters⟩ := falters_actAll hcreate hupto hfits hover
    cases hlast
    exact hfalters

/-- A stream that jumps from the least number to the greatest one and back. Two of these jumps fit,
and the third one does not. -/
theorem survives_iff_two_jumps :
    ∃ (hub : Hub ScriptedConsumer) (notices : List Notice),
      create 8 = .ok (hub, notices) ∧
      let quote (sequence : Int64) : Event :=
        ⟨sequence, 0, .buy, ⟨100⟩, ⟨1⟩, .update, ⟨7⟩, ⟨1⟩, none⟩
      let steady : ScriptedConsumer := ⟨"steady", .accept, [], none, []⟩
      let actions : List (Action ScriptedConsumer) :=
        [.operate (.subscribe steady .all), .operate (.dispatch 0 (quote Int64.minValue)),
          .operate (.dispatch 0 (quote Int64.maxValue)),
          .operate (.dispatch 0 (quote Int64.minValue)),
          .operate (.dispatch 0 (quote Int64.maxValue)),
          .operate (.dispatch 0 (quote Int64.minValue))]
      let third : Action ScriptedConsumer := .operate (.dispatch 0 (quote Int64.maxValue))
      skipped actions = 2 ^ 64 - 2 ∧ hub.Survives actions ∧
        2 ^ 64 ≤ skipped (actions ++ [third]) ∧ ¬ hub.Survives (actions ++ [third]) ∧
        (hub.actAll .trapping actions).2.Falters 0 (quote Int64.maxValue) := by
  have hcreate : create 8 = .ok ((_ : Hub ScriptedConsumer), _) := rfl
  refine ⟨_, _, hcreate, ?_⟩
  intro quote steady actions third
  have hskipped : skipped actions = 2 ^ 64 - 2 := by decide +kernel
  have hover : 2 ^ 64 ≤ skipped (actions ++ [third]) := by decide +kernel
  have hfew : (actions.filterMap Action.event?).length < 2 ^ 64 := by decide +kernel
  have hfew' : ((actions ++ [third]).filterMap Action.event?).length < 2 ^ 64 := by decide +kernel
  have hgoes := (survives_iff hcreate hfew).1.2 (by rw [hskipped]; decide)
  obtain ⟨hsurvives, hfalters⟩ := survives_iff hcreate hfew'
  refine ⟨hskipped, hgoes, hover, ?_, hfalters actions 0 _ [] rfl hgoes hover⟩
  exact fun h => Nat.not_lt_of_ge hover (hsurvives.1 h)

/-- Not every trapping run of fewer than `2 ^ 32` events survives. -/
theorem not_survives_always :
    ¬ ∀ (hub : Hub ScriptedConsumer) (notices : List Notice), create 8 = .ok (hub, notices) →
      ∀ actions : List (Action ScriptedConsumer),
        (actions.filterMap Action.event?).length < 2 ^ 32 → hub.Survives actions := by
  intro h
  have hcreate : create 8 = .ok ((_ : Hub ScriptedConsumer), _) := rfl
  let quote (sequence : Int64) : Event := ⟨sequence, 0, .buy, ⟨100⟩, ⟨1⟩, .update, ⟨7⟩, ⟨1⟩, none⟩
  let actions : List (Action ScriptedConsumer) :=
    [Int64.minValue, Int64.maxValue, Int64.minValue, Int64.maxValue, Int64.minValue,
      Int64.maxValue].map fun sequence => .operate (.dispatch 0 (quote sequence))
  have hnofault := (h _ _ hcreate actions (by decide +kernel)).noFault
  exact absurd hnofault (by decide +kernel)

end Hub

end DepthFeed

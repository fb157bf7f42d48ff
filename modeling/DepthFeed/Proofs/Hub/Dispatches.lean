import DepthFeed.Hub.Dispatch
import DepthFeed.Proofs.Sequence.Observation

/-!
# What one dispatch does

Whatever is said about runs on a hub is read off what one dispatch does to each of its parts.

* `Hub.noteGap_frame`: what becomes of a gap and of its alert.
* `Hub.Dispatches`, `Hub.dispatches`: what a silent dispatch does to each part of a hub.
-/

namespace DepthFeed

namespace Hub

variable {C : Type}

/-- A gap is counted, and its alert joins those that wait, or is dropped for want of room, or has no
receiver. -/
theorem noteGap_frame (hub : Hub C) (gap : Gap) :
    ∃ alerts dropped, (hub.noteGap gap).1 =
        { hub with
          stats := (hub.stats.countGap gap.stream gap.missing).1
          alerts := alerts
          droppedAlerts := dropped } ∧
      (hub.alerts.send gap = .ok alerts ∧ dropped = hub.droppedAlerts ∨
        hub.alerts.send gap = .error .full ∧ alerts = hub.alerts ∧
          dropped = hub.droppedAlerts + 1 ∨
        hub.alerts.send gap = .error .noReceiver ∧ alerts = hub.alerts ∧
          dropped = hub.droppedAlerts) := by
  unfold noteGap
  dsimp only
  split
  · rename_i alerts hsend
    exact ⟨alerts, hub.droppedAlerts, rfl, Or.inl ⟨hsend, rfl⟩⟩
  · rename_i hsend
    exact ⟨hub.alerts, hub.droppedAlerts + 1, rfl, Or.inr (Or.inl ⟨hsend, rfl, rfl⟩)⟩
  · rename_i hsend
    exact ⟨hub.alerts, hub.droppedAlerts, rfl, Or.inr (Or.inr ⟨hsend, rfl, rfl⟩)⟩

variable [Consumer C]

/-- What a dispatch that comes to its end does to each part of a hub. -/
structure Dispatches (hub : Hub C) (now : Int64) (e : Event) (report : Report) (next : Hub C) :
    Prop where
  subscriptions_eq : next.subscriptions = hub.subscriptions.map fun s => (s.deliver e).subscription
  nextId_eq : next.nextId = hub.nextId
  dispatched_eq : next.dispatched = hub.dispatched + 1
  delivered_eq : report.delivered = hub.subscriptions.countP fun s => (s.deliver e).isAccepted
  failed_eq : report.failed = hub.subscriptions.countP fun s => (s.deliver e).isFailed
  gap_cases :
    (report.gap = none ∧ next.monitor.gaps = hub.monitor.gaps ∧
        next.monitor.missing = hub.monitor.missing ∧
        next.stats = (hub.stats.countMessage e.stream (latency now e)).1 ∧
        next.alerts = hub.alerts ∧ next.droppedAlerts = hub.droppedAlerts) ∨
      ∃ gap, report.gap = some gap ∧ gap.stream = e.stream ∧
        next.monitor.gaps = hub.monitor.gaps + 1 ∧
        next.monitor.missing = hub.monitor.missing + gap.missing ∧
        next.stats = ((hub.stats.countMessage e.stream (latency now e)).1.countGap e.stream
          gap.missing).1 ∧
        (hub.alerts.send gap = .ok next.alerts ∧ next.droppedAlerts = hub.droppedAlerts ∨
          hub.alerts.send gap = .error .full ∧ next.alerts = hub.alerts ∧
            next.droppedAlerts = hub.droppedAlerts + 1 ∨
          hub.alerts.send gap = .error .noReceiver ∧ next.alerts = hub.alerts ∧
            next.droppedAlerts = hub.droppedAlerts)

/-- A silent dispatch always comes to its end. -/
theorem dispatches (hub : Hub C) (now : Int64) (e : Event) :
    ∃ report, (hub.dispatch .silent now e).report = .ok report ∧
      hub.Dispatches now e report (hub.dispatch .silent now e).hub := by
  unfold dispatch
  dsimp only
  rcases hub.monitor.observe_silent_cases e.stream e.sequence with
    ⟨hfound, hgaps, hmissing⟩ | ⟨gap, hfound, hstream, hgaps, hmissing⟩
  · rw [hfound]
    refine ⟨_, rfl, ?_⟩
    constructor
    · exact List.map_map
    · rfl
    · rfl
    · exact List.countP_map
    · exact List.countP_map
    · exact Or.inl ⟨rfl, hgaps, hmissing, rfl, rfl, rfl⟩
  · obtain ⟨alerts, dropped, hnoted, halerts⟩ := noteGap_frame
      { hub with
        stats := (hub.stats.countMessage e.stream (latency now e)).1
        monitor := (hub.monitor.observe .silent e.stream e.sequence).1 } gap
    rw [hfound]
    dsimp only [noteGap?]
    rw [hnoted, hstream]
    refine ⟨_, rfl, ?_⟩
    constructor
    · exact List.map_map
    · rfl
    · rfl
    · exact List.countP_map
    · exact List.countP_map
    · exact Or.inr ⟨gap, rfl, hstream, hgaps, hmissing, rfl, halerts⟩

end Hub

end DepthFeed

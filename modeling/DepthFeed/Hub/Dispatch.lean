import DepthFeed.Hub.Basic

/-!
# Dispatching one event

`Hub.dispatch` counts an event, checks its number, raises an alert for a gap, and gives the event
to every consumer that wants its instrument, in the order in which they joined. A consumer that
refuses the event or breaks down on it is counted, and the others are given it all the same.

* `Subscription.deliver`: what one consumer makes of the event, whatever the others do.
* `Hub.noteGap`: a gap is counted and its alert is sent, or dropped when there is no room.
-/

namespace DepthFeed

/-- What became of a dispatched event. -/
structure Report where
  delivered : Nat
  /-- How many consumers refused it or broke down on it. -/
  failed : Nat
  gap : Option Gap
deriving DecidableEq, Repr

structure Delivery (C : Type) where
  subscription : Subscription C
  /-- What the consumer made of the event, if it was given it. -/
  verdict : Option Verdict
  notices : List Notice
  raisesStop : Bool

def Tally.count (t : Tally) : Verdict → Tally
  | .accepted => { t with delivered := t.delivered + 1 }
  | .rejected _ => { t with failures := t.failures + 1 }
  | .crashed _ => { t with failures := t.failures + 1, crashes := t.crashes + 1 }

def Verdict.notices (consumer : String) (e : Event) : Verdict → List Notice
  | .accepted => []
  | .rejected error => [.eventRejected consumer e.stream e.sequence error]
  | .crashed crash => [.consumerCrashed consumer e.stream e.sequence crash]

/-- A subscription after an event, which its consumer is given if it wants the instrument. -/
def Subscription.deliver {C : Type} [Consumer C] (s : Subscription C) (e : Event) : Delivery C :=
  if s.interest.Covers e.instrument then
    let posted := Consumer.post s.consumer e
    { subscription := { s with consumer := posted.consumer, tally := s.tally.count posted.verdict }
      verdict := some posted.verdict
      notices := posted.notices ++ posted.verdict.notices (Consumer.name posted.consumer) e
      raisesStop := posted.raisesStop }
  else
    { subscription := s, verdict := none, notices := [], raisesStop := false }

def Delivery.isAccepted {C : Type} (delivery : Delivery C) : Bool :=
  delivery.verdict = some .accepted

def Delivery.isFailed {C : Type} (delivery : Delivery C) : Bool :=
  delivery.verdict.isSome && !delivery.isAccepted

/-- A hub after an event. On a fault the event was counted and its number noted, and nothing else
was done with it. -/
structure Dispatched (C : Type) where
  hub : Hub C
  notices : List Notice
  report : Except Fault Report
  raisesStop : Bool

namespace Hub

variable {C : Type}

/-- The hub after a gap was found, with the notices of it. -/
def noteGap (hub : Hub C) (gap : Gap) : Hub C × List Notice :=
  let (stats, _) := hub.stats.countGap gap.stream gap.missing
  let hub := { hub with stats := stats }
  match hub.alerts.send gap with
  | .ok alerts => ({ hub with alerts := alerts }, [.gapDetected gap])
  | .error .full =>
    ({ hub with droppedAlerts := hub.droppedAlerts + 1 },
      [.gapDetected gap, .alertDropped gap.stream])
  | .error .noReceiver => (hub, [.gapDetected gap])

def noteGap? (hub : Hub C) : Option Gap → Hub C × List Notice
  | none => (hub, [])
  | some gap => hub.noteGap gap

/-- The hub after every consumer was given an event that it wants, with the report. -/
def deliverAll [Consumer C] (hub : Hub C) (e : Event) (gap : Option Gap) :
    Dispatched C :=
  let deliveries := hub.subscriptions.map fun s => s.deliver e
  { hub :=
      { hub with
        subscriptions := deliveries.map Delivery.subscription
        dispatched := hub.dispatched + 1 }
    notices := deliveries.flatMap Delivery.notices
    report := .ok
      { delivered := deliveries.countP Delivery.isAccepted
        failed := deliveries.countP Delivery.isFailed
        gap := gap }
    raisesStop := deliveries.any Delivery.raisesStop }

/-- The latency of an event that is dispatched at time `now`; no difference leaves the words. -/
def latency (now : Int64) (e : Event) : Int64 :=
  Int64.ofIntClamp (now.toInt - e.timestamp.toInt)

/-- The hub after an event that is dispatched at time `now`. The counters of its stream are found by
the name of the stream, which comes to the same as through a reference that was kept, by
`Hub.reflects_actAll`. -/
def dispatch [Consumer C] (mode : OverflowMode) (now : Int64) (hub : Hub C) (e : Event) :
    Dispatched C :=
  let (stats, tracked) := hub.stats.countMessage e.stream (latency now e)
  let (monitor, found) := hub.monitor.observe mode e.stream e.sequence
  let hub := { hub with stats := stats, monitor := monitor }
  match found with
  | .error fault =>
    { hub := hub, notices := tracked, report := .error fault, raisesStop := false }
  | .ok gap =>
    let (hub, noted) := hub.noteGap? gap
    let delivered := hub.deliverAll e gap
    { delivered with notices := tracked ++ noted ++ delivered.notices }

end Hub

end DepthFeed

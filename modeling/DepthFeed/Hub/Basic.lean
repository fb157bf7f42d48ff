import DepthFeed.Channel
import DepthFeed.Settings
import DepthFeed.Consumer.Basic
import DepthFeed.Sequence.Monitor
import DepthFeed.Stats.Table

/-!
# Hubs

A `Hub` hands the events of its streams on to the consumers subscribed to it. It keeps the
numbering of the streams, their counters, and a bounded channel of alerts for the gaps it finds.

* `create`, `ofSettings`: a hub without consumers.
* `subscribe`, `unsubscribe`: consumers join under fresh numbers, and leave.
* `forget`, `countReconnect`: what the source of a stream tells.
* `addAlertReceiver`, `takeAlert`, `takeAlerts`: the receivers of the alerts, of which the
  hub itself is always one.
-/

namespace DepthFeed

/-- What became of the events given to a consumer. -/
structure Tally where
  delivered : UInt64
  failures : UInt64
  crashes : UInt64
deriving DecidableEq, Repr

/-- A consumer, the instruments it wants, and what became of its events. -/
structure Subscription (C : Type) where
  id : SubscriptionId
  interest : Interest
  consumer : C
  tally : Tally

/-- The consumers of some streams, and what is known about the streams. -/
structure Hub (C : Type) where
  /-- The consumers in the order in which they joined. -/
  subscriptions : List (Subscription C)
  nextId : UInt64
  monitor : SequenceMonitor
  /-- The counters of the streams. References to them that are kept at hand, as a `StatsKeeper` has
  them, are left out, since they lead to the counters that the table has. -/
  stats : StatsTable
  alerts : Channel Gap
  droppedAlerts : UInt64
  dispatched : UInt64

namespace Hub

variable {C : Type}

/-- A hub without consumers whose alert channel holds `alertCapacity` gaps. -/
def create (alertCapacity : Nat) : Except SettingsError (Hub C × List Notice) :=
  if alertCapacity = 0 then
    .error .alertCapacity
  else
    .ok ({
      subscriptions := []
      nextId := 0
      monitor := .empty
      stats := .empty
      alerts := .bounded alertCapacity
      droppedAlerts := 0
      dispatched := 0 }, [.hubReady alertCapacity])

def ofSettings (settings : Settings) : Except SettingsError (Hub C × List Notice) := do
  settings.validate
  create settings.alertCapacity.toNat

def size (hub : Hub C) : Nat := hub.subscriptions.length

/-! ## Consumers -/

/-- The hub with one more consumer, its number, and the notice of it. -/
def subscribe [Consumer C] (hub : Hub C) (consumer : C) (interest : Interest) :
    SubscriptionId × Hub C × List Notice :=
  let id : SubscriptionId := ⟨hub.nextId⟩
  let subscription : Subscription C :=
    { id := id, interest := interest, consumer := consumer,
      tally := { delivered := 0, failures := 0, crashes := 0 } }
  (id,
    { hub with subscriptions := hub.subscriptions ++ [subscription], nextId := hub.nextId + 1 },
    [.consumerJoined (Consumer.name consumer) id interest])

def subscription? (hub : Hub C) (id : SubscriptionId) : Option (Subscription C) :=
  hub.subscriptions.find? fun s => s.id = id

/-- The consumer that leaves, if it is subscribed, the hub without it, and the notice of it. -/
def unsubscribe [Consumer C] (hub : Hub C) (id : SubscriptionId) :
    Option (Subscription C) × Hub C × List Notice :=
  match hub.subscription? id with
  | none => (none, hub, [])
  | some s =>
    (some s,
      { hub with subscriptions := hub.subscriptions.eraseP fun s => s.id = id },
      [.consumerLeft (Consumer.name s.consumer) id s.tally.delivered s.tally.failures])

def tally? (hub : Hub C) (id : SubscriptionId) : Option Tally :=
  (hub.subscription? id).map Subscription.tally

/-- The hub after something changed a consumer from outside. -/
def changeConsumer (hub : Hub C) (id : SubscriptionId) (change : C → C) : Hub C :=
  { hub with
    subscriptions := hub.subscriptions.map fun s =>
      if s.id = id then { s with consumer := change s.consumer } else s }

/-! ## Streams -/

def forget (hub : Hub C) (stream : StreamId) : Hub C × List Notice :=
  ({ hub with monitor := hub.monitor.forget stream }, [.cursorReset stream])

def countReconnect (hub : Hub C) (stream : StreamId) : Hub C × List Notice :=
  let (stats, notices) := hub.stats.countReconnect stream
  ({ hub with stats := stats }, notices)

/-! ## Alerts -/

/-- The hub with one more receiver of its alerts, beside its own. -/
def addAlertReceiver (hub : Hub C) : Hub C := { hub with alerts := hub.alerts.subscribe }

/-- The hub with one receiver of its alerts fewer; its own stays. -/
def removeAlertReceiver (hub : Hub C) : Hub C :=
  if 1 < hub.alerts.receivers then { hub with alerts := hub.alerts.unsubscribe } else hub

def takeAlert (hub : Hub C) : Option Gap × Hub C :=
  let (gap, alerts) := hub.alerts.receive
  (gap, { hub with alerts := alerts })

def takeAlerts (hub : Hub C) : List Gap × Hub C :=
  let (gaps, alerts) := hub.alerts.receiveAll
  (gaps, { hub with alerts := alerts })

end Hub

end DepthFeed

import DepthFeed.Channel
import DepthFeed.Consumer.Basic

/-!
# Consumers that queue

A `QueueConsumer` sends its events into a bounded channel that others receive from.
-/

namespace DepthFeed

/-- A named channel of events. -/
structure QueueConsumer where
  name : String
  channel : Channel Event
deriving DecidableEq, Repr

namespace QueueConsumer

def bounded (name : String) (capacity : Nat) : QueueConsumer where
  name := name
  channel := .bounded capacity

/-- The consumer after an event that finds room in its channel. -/
def accept (c : QueueConsumer) (e : Event) : Except Rejection QueueConsumer :=
  match c.channel.send e with
  | .ok channel => .ok { c with channel := channel }
  | .error .full => .error (.queueFull c.channel.capacity)
  | .error .noReceiver => .error .noReceiver

instance : Consumer QueueConsumer where
  name := QueueConsumer.name
  post c e :=
    match c.accept e with
    | .ok c' => { consumer := c', verdict := .accepted, notices := [], raisesStop := false }
    | .error error =>
      { consumer := c, verdict := .rejected error, notices := [], raisesStop := false }

end QueueConsumer

end DepthFeed

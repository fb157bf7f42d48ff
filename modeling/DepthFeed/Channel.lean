/-!
# Bounded channels

A `Channel` is a first-in first-out queue of limited capacity whose receivers may come and go.

* `send`: an item joins the queue unless the queue is full or no receiver is left.
* `receive`, `receiveAll`: the oldest item, or all of them.
* `subscribe`, `unsubscribe`: another receiver, or one fewer.
-/

namespace DepthFeed

inductive SendError where
  | full
  | noReceiver
deriving DecidableEq, Repr

/-- A bounded queue. -/
structure Channel (α : Type) where
  capacity : Nat
  /-- The items in the queue, oldest first. -/
  waiting : List α
  receivers : Nat
deriving DecidableEq, Repr

namespace Channel

variable {α : Type}

/-- An empty queue with one receiver. -/
def bounded (capacity : Nat) : Channel α where
  capacity := capacity
  waiting := []
  receivers := 1

def hasReceiver (c : Channel α) : Bool := 0 < c.receivers

/-- The channel with one more item; a channel without receivers refuses it as such, full or not. -/
def send (c : Channel α) (item : α) : Except SendError (Channel α) :=
  if c.receivers = 0 then .error .noReceiver
  else if c.capacity ≤ c.waiting.length then .error .full
  else .ok { c with waiting := c.waiting ++ [item] }

def receive (c : Channel α) : Option α × Channel α :=
  (c.waiting.head?, { c with waiting := c.waiting.tail })

def receiveAll (c : Channel α) : List α × Channel α := (c.waiting, { c with waiting := [] })

def subscribe (c : Channel α) : Channel α := { c with receivers := c.receivers + 1 }

def unsubscribe (c : Channel α) : Channel α := { c with receivers := c.receivers - 1 }

end Channel

end DepthFeed

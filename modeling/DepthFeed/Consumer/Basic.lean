import DepthFeed.Notice

/-!
# Consumers

A consumer is a state machine that is given events one at a time. What it makes of an event is a
`Posted` value: its next state, and whether it accepted the event, refused it or broke down. A
consumer may also raise the stop flag of the loop that feeds it.

Two kinds of consumer side by side are one kind, by their sum.
-/

namespace DepthFeed

/-- What a consumer makes of an event. -/
inductive Verdict where
  | accepted
  | rejected (error : Rejection)
  | crashed (crash : Crash)
deriving DecidableEq, Repr

/-- A consumer after an event. -/
structure Posted (C : Type) where
  consumer : C
  verdict : Verdict
  notices : List Notice
  raisesStop : Bool

/-- State machines that take events. -/
class Consumer (C : Type) where
  name : C → String
  post : C → Event → Posted C

/-- A consumer after an event, as a consumer of a larger kind. -/
def Posted.map {C D : Type} (f : C → D) (p : Posted C) : Posted D :=
  { p with consumer := f p.consumer }

instance {C D : Type} [Consumer C] [Consumer D] : Consumer (C ⊕ D) where
  name
    | .inl c => Consumer.name c
    | .inr d => Consumer.name d
  post
    | .inl c, e => (Consumer.post c e).map .inl
    | .inr d, e => (Consumer.post d e).map .inr

end DepthFeed

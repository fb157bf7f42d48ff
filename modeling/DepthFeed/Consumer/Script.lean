import DepthFeed.Consumer.Basic

/-!
# Consumers that follow a script

A `ScriptedConsumer` records the numbers of the events it is given and answers each as its script
says, which makes every outcome of a consumer available on demand.
-/

namespace DepthFeed

inductive Reaction where
  | accept
  | reject
  | crash
  /-- A breakdown with a text that tells the number of the event. -/
  | crashNaming
  | crashSilently
deriving DecidableEq, Repr

def Reaction.verdict (sequence : Int64) : Reaction → Verdict
  | .accept => .accepted
  | .reject => .rejected (.other ("rejected " ++ toString sequence.toInt))
  | .crash => .crashed (.text "consumer blew up")
  | .crashNaming => .crashed (.text ("consumer blew up on " ++ toString sequence.toInt))
  | .crashSilently => .crashed .unreadable

/-- A script, and the numbers of the events so far. -/
structure ScriptedConsumer where
  name : String
  /-- The answer where the script names none. -/
  usual : Reaction
  /-- Answers by the number of the event; the last one for a number counts. -/
  script : List (Int64 × Reaction)
  /-- The number of the event that raises the stop flag. -/
  stopOn : Option Int64
  /-- The numbers of the events so far, latest first. -/
  seen : List Int64
deriving DecidableEq, Repr

namespace ScriptedConsumer

def reaction (c : ScriptedConsumer) (sequence : Int64) : Reaction :=
  ((c.script.reverse.find? fun entry => entry.1 = sequence).map Prod.snd).getD c.usual

instance : Consumer ScriptedConsumer where
  name := ScriptedConsumer.name
  post c e :=
    { consumer := { c with seen := e.sequence :: c.seen }
      verdict := (c.reaction e.sequence).verdict e.sequence
      notices := []
      raisesStop := c.stopOn = some e.sequence }

end ScriptedConsumer

end DepthFeed

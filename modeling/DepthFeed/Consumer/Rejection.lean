import DepthFeed.Book.Basic

/-!
# Why a consumer does not take an event

A consumer may refuse an event with a `Rejection`, or break down with a `Crash`.
-/

namespace DepthFeed

/-- Why a consumer refuses an event. -/
inductive Rejection where
  | refused (refusal : Refusal)
  | queueFull (capacity : Nat)
  /-- Nobody is left to take events from the consumer. -/
  | noReceiver
  /-- A reason of the consumer's own. -/
  | other (text : String)
deriving DecidableEq, Repr

def Rejection.message : Rejection → String
  | .refused refusal => refusal.message
  | .queueFull capacity => "consumer queue full (" ++ toString capacity ++ " events)"
  | .noReceiver => "consumer disconnected"
  | .other text => text

/-- What a consumer leaves behind when it breaks down. -/
inductive Crash where
  | text (text : String)
  /-- Something that is no text. -/
  | unreadable
deriving DecidableEq, Repr

def Crash.message : Crash → String
  | .text s => s
  | .unreadable => "non-string panic payload"

end DepthFeed

import DepthFeed.Consumer.Publisher
import DepthFeed.Consumer.Queue
import DepthFeed.Consumer.Script
import DepthFeed.Hub.Dispatch

/-!
# What notices are about

The notices of a hub that an observer looks for are known by their severity and their text. A
consumer that keeps to notices about books adds none to them, and what comes of the delivery of an
event is told by its verdict.

* `Notice.Topic`, `Notice.isOn`: the notices of one severity and text.
* `Consumer.Discreet`: consumers whose own notices are about books, and not those of a hub.
* `Subscription.countP_crash_deliver`, `Subscription.countP_rejection_deliver`: a failure is noted
  once, and counted once.
-/

namespace DepthFeed

/-! ## Topics -/

namespace Notice

inductive Topic where
  | gap
  | lostAlert
  | crash
  | rejection
  | newStream
  | departure
deriving DecidableEq, Repr

/-- The severity and the text of the notices on a topic. -/
def Topic.label : Topic → Severity × String
  | gap => (.warn, "Sequence gap detected")
  | lostAlert => (.debug, "Gap alert channel full, alert dropped")
  | crash => (.error, "Consumer panicked")
  | rejection => (.warn, "Consumer rejected event")
  | newStream => (.info, "Tracking new stream")
  | departure => (.info, "Consumer unregistered")

def isOn (topic : Topic) (n : Notice) : Bool := (n.severity, n.message) = topic.label

/-- Whether a notice is one that a book leaves, and not a hub. -/
def isOfBook : Notice → Bool
  | foreignEvent .. => true
  | noRestingLevel .. => true
  | _ => false

theorem isOn_of_isOfBook {n : Notice} (hbook : n.isOfBook) (topic : Topic) :
    n.isOn topic = false := by
  cases topic <;> cases n <;> first | rfl | cases hbook

end Notice

/-! ## Consumers -/

/-- Consumers that leave no notices in the name of a hub. -/
class Consumer.Discreet (C : Type) [Consumer C] : Prop where
  isOfBook_of_mem {consumer : C} {e : Event} {n : Notice} :
    n ∈ (Consumer.post consumer e).notices → n.isOfBook

namespace Consumer.Discreet

instance : Discreet ScriptedConsumer where
  isOfBook_of_mem hmem := nomatch hmem

instance : Discreet QueueConsumer where
  isOfBook_of_mem {consumer e n} hmem := by
    have hnone : (Consumer.post consumer e).notices = [] := by
      simp only [Consumer.post]
      split <;> rfl
    rw [hnone] at hmem
    cases hmem

instance : Discreet BookPublisher where
  isOfBook_of_mem {consumer e n} hmem := by
    have hnotices : (Consumer.post consumer e).notices = consumer.book.noticesOn e := by
      simp only [Consumer.post]
      split <;> rfl
    rw [hnotices, Book.noticesOn] at hmem
    split at hmem
    · split at hmem
      · rw [List.mem_singleton.1 hmem]
        rfl
      · cases hmem
    · rw [List.mem_singleton.1 hmem]
      rfl

instance {C D : Type} [Consumer C] [Consumer D] [Discreet C] [Discreet D] :
    Discreet (C ⊕ D) where
  isOfBook_of_mem {consumer e n} hmem := by
    cases consumer with
    | inl c =>
      have hc : n ∈ (Consumer.post c e).notices := hmem
      exact isOfBook_of_mem hc
    | inr d =>
      have hd : n ∈ (Consumer.post d e).notices := hmem
      exact isOfBook_of_mem hd

end Consumer.Discreet

variable {C : Type}

def Delivery.isCrashed (delivery : Delivery C) : Bool :=
  delivery.verdict matches some (.crashed _)

def Delivery.isRejected (delivery : Delivery C) : Bool :=
  delivery.verdict matches some (.rejected _)

variable [Consumer C]

namespace Subscription

variable (s : Subscription C) (e : Event)

theorem crashes_deliver :
    (s.deliver e).subscription.tally.crashes =
      s.tally.crashes + if (s.deliver e).isCrashed then 1 else 0 := by
  unfold deliver
  split
  · unfold Delivery.isCrashed
    cases hverdict : (Consumer.post s.consumer e).verdict <;> simp [Tally.count, hverdict]
  · exact (UInt64.add_zero _).symm

/-- A failure that is not a breakdown is a rejection. -/
theorem rejections_deliver :
    (s.deliver e).subscription.tally.failures - (s.deliver e).subscription.tally.crashes =
      s.tally.failures - s.tally.crashes + if (s.deliver e).isRejected then 1 else 0 := by
  unfold deliver
  split
  · unfold Delivery.isRejected
    cases hverdict : (Consumer.post s.consumer e).verdict with
    | accepted => simp [Tally.count, hverdict]
    | rejected error =>
      simp only [Tally.count, hverdict, if_true]
      grind
    | crashed crash =>
      simp only [Tally.count, hverdict, Bool.false_eq_true, if_false]
      grind
  · exact (UInt64.add_zero _).symm

variable [Consumer.Discreet C]

/-- What a consumer has to say of its own is on no topic of the hub. -/
theorem filter_notices_deliver (topic : Notice.Topic) :
    (s.deliver e).notices.filter (·.isOn topic) =
      match (s.deliver e).verdict with
      | none => []
      | some verdict =>
        (verdict.notices (Consumer.name (Consumer.post s.consumer e).consumer) e).filter
          (·.isOn topic) := by
  have hown : (Consumer.post s.consumer e).notices.filter (·.isOn topic) = [] := by
    rw [List.filter_eq_nil_iff]
    intro n hmem
    rw [Notice.isOn_of_isOfBook (Consumer.Discreet.isOfBook_of_mem hmem)]
    exact Bool.false_ne_true
  unfold deliver
  split
  · dsimp only
    rw [List.filter_append, hown, List.nil_append]
  · rfl

theorem countP_crash_deliver :
    (s.deliver e).notices.countP (·.isOn .crash) = if (s.deliver e).isCrashed then 1 else 0 := by
  rw [List.countP_eq_length_filter, filter_notices_deliver, Delivery.isCrashed]
  cases (s.deliver e).verdict with
  | none => rfl
  | some verdict => cases verdict <;> rfl

theorem countP_rejection_deliver :
    (s.deliver e).notices.countP (·.isOn .rejection) =
      if (s.deliver e).isRejected then 1 else 0 := by
  rw [List.countP_eq_length_filter, filter_notices_deliver, Delivery.isRejected]
  cases (s.deliver e).verdict with
  | none => rfl
  | some verdict => cases verdict <;> rfl

/-- No other notice of a hub comes from the delivery of an event. -/
theorem filter_notices_deliver_eq_nil {topic : Notice.Topic} (hcrash : topic ≠ .crash)
    (hrejection : topic ≠ .rejection) : (s.deliver e).notices.filter (·.isOn topic) = [] := by
  rw [filter_notices_deliver]
  cases (s.deliver e).verdict with
  | none => rfl
  | some verdict =>
    cases verdict with
    | accepted => rfl
    | rejected error =>
      cases topic <;> first | rfl | exact absurd rfl hrejection
    | crashed crash =>
      cases topic <;> first | rfl | exact absurd rfl hcrash

end Subscription

end DepthFeed

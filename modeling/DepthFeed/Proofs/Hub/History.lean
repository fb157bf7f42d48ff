import Mathlib.Algebra.Group.Nat.Defs
import Mathlib.Data.List.TakeWhile
import DepthFeed.Hub.Dispatch
import DepthFeed.Proofs.Runs

/-!
# The consumers of a hub, told by what was done

`Hub.Operation` lists what is done to a hub. The rest of this file never looks at a hub: from a
list of operations alone it tells which consumers a hub has after them, and in which states.

* `Hub.stay`, `Hub.eventsFor`: the operations until a consumer leaves, and the dispatched events
  that it wants among them.
* `Consumer.attend`: a consumer that is given some events, with nothing else around it.
* `Subscription.deliverEach_attending`: so is the consumer of a subscription, of the events it wants.
* `Hub.members`: the consumers that joined and did not leave, each as the events since then made it.
* `Hub.mem_members`, `Hub.members_sorted`: who they are, and that they stand in the order of joining.
-/

namespace DepthFeed

variable {C : Type}

/-! ## Operations -/

inductive Hub.Operation (C : Type) where
  | subscribe (consumer : C) (interest : Interest)
  | unsubscribe (id : SubscriptionId)
  | forget (stream : StreamId)
  | dispatch (now : Int64) (e : Event)

namespace Hub

def Operation.isJoin : Operation C → Bool
  | .subscribe _ _ => true
  | _ => false

def Operation.isLeave (id : SubscriptionId) : Operation C → Bool
  | .unsubscribe other => other = id
  | _ => false

def Operation.eventFor? (interest : Interest) : Operation C → Option Event
  | .dispatch _ e => if interest.Covers e.instrument then some e else none
  | _ => none

def joins (operations : List (Operation C)) : Nat := operations.countP Operation.isJoin

/-- The number of the consumer that joins after `n` others. -/
def idAfter (n : Nat) : SubscriptionId := ⟨.ofNat n⟩

def leaves (id : SubscriptionId) (operations : List (Operation C)) : Bool :=
  operations.any (·.isLeave id)

/-- The operations until the consumer of number `id` leaves. -/
def stay (id : SubscriptionId) (operations : List (Operation C)) : List (Operation C) :=
  operations.takeWhile (!·.isLeave id)

def eventsFor (interest : Interest) (operations : List (Operation C)) : List Event :=
  operations.filterMap (Operation.eventFor? interest)

end Hub

/-! ## A consumer on its own -/

/-- An event that was given to a consumer, and what the consumer made of it. -/
structure Post where
  event : Event
  verdict : Verdict
deriving DecidableEq, Repr

/-- A consumer that is given some events, with nothing else around it. -/
def Consumer.attend [Consumer C] (consumer : C) (events : List Event) : List Post × C :=
  runWith (fun consumer e => (⟨e, (post consumer e).verdict⟩, (post consumer e).consumer))
    consumer events

def Tally.of (posts : List Post) : Tally where
  delivered := .ofNat (posts.countP fun p => p.verdict matches .accepted)
  failures := .ofNat (posts.countP fun p => p.verdict matches .rejected _ | .crashed _)
  crashes := .ofNat (posts.countP fun p => p.verdict matches .crashed _)

def Subscription.attending [Consumer C] (id : SubscriptionId) (interest : Interest) (consumer : C)
    (events : List Event) : Subscription C where
  id := id
  interest := interest
  consumer := (Consumer.attend consumer events).2
  tally := .of (Consumer.attend consumer events).1

theorem Tally.of_append_singleton (posts : List Post) (p : Post) :
    Tally.of (posts ++ [p]) = (Tally.of posts).count p.verdict := by
  cases hverdict : p.verdict <;>
    simp [Tally.of, Tally.count, hverdict, List.countP_append, UInt64.ofNat_add]

/-- Every post is counted as accepted or as failed, and as one of them only. -/
theorem Tally.delivered_add_failures (posts : List Post) :
    (Tally.of posts).delivered + (Tally.of posts).failures = .ofNat posts.length := by
  have hcount : (posts.countP fun p => p.verdict matches .accepted) +
      (posts.countP fun p => p.verdict matches .rejected _ | .crashed _) = posts.length := by
    induction posts with
    | nil => rfl
    | cons p posts ih =>
      cases hverdict : p.verdict <;> simp [hverdict] <;> omega
  rw [← hcount, UInt64.ofNat_add]
  rfl

section Attend

variable [Consumer C]

/-- A consumer on its own is given each event once, in the order of the events. -/
theorem Consumer.attend_events (consumer : C) (events : List Event) :
    (Consumer.attend consumer events).1.map Post.event = events := by
  induction events generalizing consumer with
  | nil => rfl
  | cons e events ih => exact congrArg (e :: ·) (ih _)

theorem Consumer.attend_append_singleton (consumer : C) (events : List Event) (e : Event) :
    Consumer.attend consumer (events ++ [e]) =
      ((Consumer.attend consumer events).1 ++
          [⟨e, (post (Consumer.attend consumer events).2 e).verdict⟩],
        (post (Consumer.attend consumer events).2 e).consumer) := by
  simp [Consumer.attend, runWith_append]

theorem Subscription.verdict_deliver (s : Subscription C) (e : Event) :
    (s.deliver e).verdict =
      if s.interest.Covers e.instrument then some (Consumer.post s.consumer e).verdict
      else none := by
  unfold deliver
  split <;> rfl

theorem Subscription.deliver_attending (id : SubscriptionId) (interest : Interest) (consumer : C)
    (events : List Event) (e : Event) :
    ((attending id interest consumer events).deliver e).subscription =
      attending id interest consumer
        (events ++ if interest.Covers e.instrument then [e] else []) := by
  unfold deliver
  by_cases hcovers : interest.Covers e.instrument
  · have hwants : (attending id interest consumer events).interest.Covers e.instrument := hcovers
    rw [if_pos hwants, if_pos hcovers]
    simp [attending, Consumer.attend_append_singleton, Tally.of_append_singleton]
  · have hwants : ¬ (attending id interest consumer events).interest.Covers e.instrument := hcovers
    rw [if_neg hwants, if_neg hcovers, List.append_nil]

/-- A subscription after some events. -/
def Subscription.deliverEach (s : Subscription C) (events : List Event) :
    Subscription C :=
  events.foldl (fun s e => (s.deliver e).subscription) s

theorem Subscription.deliverEach_append (s : Subscription C)
    (earlier later : List Event) :
    s.deliverEach (earlier ++ later) = (s.deliverEach earlier).deliverEach later :=
  List.foldl_append

theorem Subscription.id_deliver (s : Subscription C) (e : Event) :
    (s.deliver e).subscription.id = s.id := by
  unfold deliver
  split <;> rfl

theorem Subscription.id_deliverEach (s : Subscription C) (events : List Event) :
    (s.deliverEach events).id = s.id := by
  induction events generalizing s with
  | nil => rfl
  | cons e events ih => exact (ih _).trans (s.id_deliver e)

/-- The events of the instruments that an interest covers. -/
def Interest.wanted (interest : Interest) (events : List Event) : List Event :=
  events.filter fun e => interest.Covers e.instrument

/-- A subscription is given the events that it wants, as its consumer would be on its own. -/
theorem Subscription.deliverEach_attending (id : SubscriptionId) (interest : Interest)
    (consumer : C) (earlier later : List Event) :
    (attending id interest consumer earlier).deliverEach later =
      attending id interest consumer (earlier ++ interest.wanted later) := by
  induction later generalizing earlier with
  | nil =>
    rw [Interest.wanted, List.filter_nil, List.append_nil]
    rfl
  | cons e later ih =>
    have hcons : interest.wanted (e :: later) =
        (if interest.Covers e.instrument then [e] else []) ++ interest.wanted later := by
      by_cases hcovers : interest.Covers e.instrument <;> simp [Interest.wanted, hcovers]
    rw [hcons, ← List.append_assoc, ← ih, ← deliver_attending]
    rfl

end Attend

namespace Hub

/-! ## Lists of operations -/

@[simp]
theorem joins_nil : joins ([] : List (Operation C)) = 0 := rfl

theorem joins_cons (operation : Operation C) (later : List (Operation C)) :
    joins (operation :: later) = joins later + if operation.isJoin then 1 else 0 :=
  List.countP_cons

@[simp]
theorem joins_append (earlier later : List (Operation C)) :
    joins (earlier ++ later) = joins earlier + joins later := List.countP_append

@[simp]
theorem leaves_append (id : SubscriptionId) (earlier later : List (Operation C)) :
    leaves id (earlier ++ later) = (leaves id earlier || leaves id later) := List.any_append

theorem leaves_singleton (id : SubscriptionId) (operation : Operation C) :
    leaves id [operation] = operation.isLeave id := by
  simp [leaves]

theorem eventsFor_singleton (interest : Interest) (operation : Operation C) :
    eventsFor interest [operation] = (operation.eventFor? interest).toList := by
  cases hevent : operation.eventFor? interest <;> simp [eventsFor, hevent]

@[simp]
theorem eventsFor_append (interest : Interest) (earlier later : List (Operation C)) :
    eventsFor interest (earlier ++ later) =
      eventsFor interest earlier ++ eventsFor interest later := List.filterMap_append

theorem stay_of_not_leaves {id : SubscriptionId} {operations : List (Operation C)}
    (h : leaves id operations = false) : stay id operations = operations := by
  refine List.takeWhile_eq_self_iff.2 fun operation hmem => ?_
  have hnot := List.any_eq_false.1 h operation hmem
  simpa using hnot

theorem leaves_stay (id : SubscriptionId) (operations : List (Operation C)) :
    leaves id (stay id operations) = false := by
  refine List.any_eq_false.2 fun operation hmem => ?_
  have hstays := List.mem_takeWhile_imp hmem
  simpa using hstays

/-- After a consumer left, nothing is part of its stay any longer. -/
theorem stay_append_of_leaves {id : SubscriptionId} {operations : List (Operation C)}
    (hleaves : leaves id operations = true) (last : Operation C) :
    stay id (operations ++ [last]) = stay id operations := by
  obtain ⟨operation, hmem, hleave⟩ := List.any_eq_true.1 hleaves
  unfold stay
  rw [List.takeWhile_append, if_neg]
  intro hlength
  have hself := List.takeWhile_eq_self_iff.1
    ((List.takeWhile_prefix _).eq_of_length hlength) operation hmem
  simp [hleave] at hself

/-- The operation by which a consumer leaves ends its stay. -/
theorem stay_append_of_isLeave {id : SubscriptionId} {operations : List (Operation C)}
    {last : Operation C} (hstays : leaves id operations = false) (hlast : last.isLeave id = true) :
    stay id (operations ++ [last]) = operations := by
  unfold stay
  rw [List.takeWhile_append_of_pos (List.takeWhile_eq_self_iff.1 (stay_of_not_leaves hstays)),
    List.takeWhile_cons_of_neg (by simp [hlast]), List.append_nil]

theorem eventFor?_of_isLeave {id : SubscriptionId} {operation : Operation C}
    (h : operation.isLeave id = true) (interest : Interest) :
    operation.eventFor? interest = none := by
  cases operation with
  | unsubscribe other => rfl
  | subscribe consumer interest => rfl
  | forget stream => rfl
  | dispatch now e => cases h

/-- Only what is dispatched before a consumer leaves counts as dispatched during its stay. -/
theorem eventsFor_stay_append_singleton (id : SubscriptionId) (interest : Interest)
    (operations : List (Operation C)) (last : Operation C) :
    eventsFor interest (stay id (operations ++ [last])) =
      eventsFor interest (stay id operations) ++
        if leaves id operations then [] else (last.eventFor? interest).toList := by
  by_cases hleaves : leaves id operations
  · rw [stay_append_of_leaves hleaves, if_pos hleaves, List.append_nil]
  · have hstays : leaves id operations = false := Bool.eq_false_iff.2 hleaves
    rw [if_neg hleaves, stay_of_not_leaves hstays]
    by_cases hlast : last.isLeave id
    · rw [stay_append_of_isLeave hstays hlast, eventFor?_of_isLeave hlast]
      exact (List.append_nil _).symm
    · have hstays' : leaves id (operations ++ [last]) = false := by
        rw [leaves_append, leaves_singleton, hstays, Bool.false_or]
        exact Bool.eq_false_iff.2 hlast
      rw [stay_of_not_leaves hstays', eventsFor_append, eventsFor_singleton]

theorem toNat_idAfter {n : Nat} (hn : n < 2 ^ 64) : (idAfter n).number.toNat = n :=
  UInt64.toNat_ofNat_of_lt' hn

theorem idAfter_lt {m n : Nat} (hmn : m < n) (hn : n < 2 ^ 64) :
    (idAfter m).number < (idAfter n).number := by
  rw [UInt64.lt_iff_toNat_lt, toNat_idAfter (by omega), toNat_idAfter hn]
  exact hmn

/-- The operation by which a consumer joined is determined by its number. -/
theorem join_unique {before before' after after' : List (Operation C)}
    {operation operation' : Operation C} (hjoin : operation.isJoin = true)
    (hjoin' : operation'.isJoin = true)
    (hsplit : before ++ operation :: after = before' ++ operation' :: after')
    (hcount : joins before = joins before') : operation = operation' ∧ after = after' := by
  induction before generalizing before' with
  | nil =>
    cases before' with
    | nil => exact List.cons.inj hsplit
    | cons first rest =>
      obtain ⟨rfl, -⟩ := List.cons.inj hsplit
      rw [joins_nil, joins_cons, if_pos hjoin] at hcount
      omega
  | cons first rest ih =>
    cases before' with
    | nil =>
      obtain ⟨rfl, -⟩ := List.cons.inj hsplit
      rw [joins_nil, joins_cons, if_pos hjoin'] at hcount
      omega
    | cons first' rest' =>
      obtain ⟨rfl, hrest⟩ := List.cons.inj hsplit
      rw [joins_cons, joins_cons] at hcount
      exact ih hrest (by omega)

/-! ## Who is there -/

variable [Consumer C]

/-- The consumer that joins after `n` others, as the later operations make it, if it stays. -/
def Operation.arrival (n : Nat) (later : List (Operation C)) :
    Operation C → Option (Subscription C)
  | .subscribe consumer interest =>
    if leaves (idAfter n) later then none
    else some (.attending (idAfter n) interest consumer (eventsFor interest later))
  | _ => none

/-- What an operation makes of a subscription, if the subscription stays. -/
def Operation.keep : Operation C → Subscription C → Option (Subscription C)
  | .unsubscribe id, s => if s.id = id then none else some s
  | .dispatch _ e, s => some (s.deliver e).subscription
  | _, s => some s

/-- The consumers that joined and did not leave, where `n` others joined before. -/
def members (n : Nat) : List (Operation C) → List (Subscription C)
  | [] => []
  | operation :: later =>
    (operation.arrival n later).toList ++ members (n + joins [operation]) later

/-- A subscription stays unless its own number is unsubscribed, and its consumer is given the event
that is dispatched if it wants it. -/
theorem keep_attending (last : Operation C) (id : SubscriptionId) (interest : Interest)
    (consumer : C) (events : List Event) :
    last.keep (.attending id interest consumer events) =
      if last.isLeave id then none
      else some (.attending id interest consumer (events ++ (last.eventFor? interest).toList)) := by
  cases last with
  | subscribe consumer interest => simp [Operation.keep, Operation.isLeave, Operation.eventFor?]
  | forget stream => simp [Operation.keep, Operation.isLeave, Operation.eventFor?]
  | unsubscribe other =>
    by_cases hid : other = id
    · simp [Operation.keep, Operation.isLeave, Subscription.attending, hid]
    · have hother : ¬ id = other := fun h => hid h.symm
      simp [Operation.keep, Operation.isLeave, Operation.eventFor?, Subscription.attending, hid,
        hother]
  | dispatch now e =>
    rw [Operation.keep, Subscription.deliver_attending]
    by_cases hcovers : interest.Covers e.instrument <;>
      simp [Operation.isLeave, Operation.eventFor?, hcovers]

theorem arrival_append_singleton (n : Nat) (later : List (Operation C))
    (operation last : Operation C) :
    operation.arrival n (later ++ [last]) = (operation.arrival n later).bind last.keep := by
  cases operation with
  | subscribe consumer interest =>
    simp only [Operation.arrival, leaves_append, eventsFor_append, leaves_singleton,
      eventsFor_singleton]
    cases leaves (idAfter n) later
    · rw [Bool.false_or, if_neg Bool.false_ne_true, Option.bind_some, keep_attending]
    · rfl
  | unsubscribe id => rfl
  | forget stream => rfl
  | dispatch now e => rfl

/-- One more operation acts on every consumer that is there, and may let one more join. -/
theorem members_append_singleton (n : Nat) (operations : List (Operation C))
    (last : Operation C) :
    members n (operations ++ [last]) =
      (members n operations).filterMap last.keep ++
        (last.arrival (n + joins operations) []).toList := by
  induction operations generalizing n with
  | nil => simp [members]
  | cons operation later ih =>
    have harrival : (operation.arrival n (later ++ [last])).toList =
        (operation.arrival n later).toList.filterMap last.keep := by
      rw [arrival_append_singleton]
      cases operation.arrival n later with
      | none => rfl
      | some s => cases hkeep : last.keep s <;> simp [hkeep]
    have hjoins : n + joins [operation] + joins later = n + joins (operation :: later) := by
      rw [Nat.add_assoc, ← joins_append, List.singleton_append]
    rw [List.cons_append, members, members, harrival, ih, hjoins, List.filterMap_append,
      List.append_assoc]

/-- A consumer is there if it joined at some time and did not leave after that. -/
theorem mem_members {n : Nat} {operations : List (Operation C)} {s : Subscription C} :
    s ∈ members n operations ↔
      ∃ before operation after, operations = before ++ operation :: after ∧
        operation.arrival (n + joins before) after = some s := by
  induction operations generalizing n with
  | nil => simp [members]
  | cons operation later ih =>
    rw [members, List.mem_append, Option.mem_toList, ih]
    constructor
    · rintro (hfirst | ⟨before, other, after, rfl, hother⟩)
      · exact ⟨[], operation, later, rfl, hfirst⟩
      · refine ⟨operation :: before, other, after, rfl, ?_⟩
        rw [← hother, Nat.add_assoc, ← joins_append, List.singleton_append]
    · rintro ⟨before, other, after, hsplit, hother⟩
      cases before with
      | nil =>
        obtain ⟨rfl, rfl⟩ := List.cons.inj hsplit
        exact Or.inl hother
      | cons first before =>
        obtain ⟨rfl, rfl⟩ := List.cons.inj hsplit
        refine Or.inr ⟨before, other, after, rfl, ?_⟩
        rw [← hother, Nat.add_assoc, ← joins_append, List.singleton_append]

/-- Subscriptions in the order of joining, under different numbers. -/
def Sorted (subscriptions : List (Subscription C)) : Prop :=
  subscriptions.Pairwise fun s s' => s.id.number < s'.id.number

theorem arrival_eq_some {n : Nat} {operation : Operation C} {later : List (Operation C)}
    {s : Subscription C} (h : operation.arrival n later = some s) :
    operation.isJoin = true ∧ s.id = idAfter n ∧ leaves (idAfter n) later = false := by
  cases operation with
  | subscribe consumer interest =>
    simp only [Operation.arrival, Option.ite_none_left_eq_some, Option.some.injEq] at h
    obtain ⟨hleaves, rfl⟩ := h
    exact ⟨rfl, rfl, Bool.eq_false_iff.2 hleaves⟩
  | unsubscribe id => cases h
  | forget stream => cases h
  | dispatch now e => cases h

theorem id_of_mem_members {n : Nat} {operations : List (Operation C)} {s : Subscription C}
    (h : s ∈ members n operations) :
    ∃ k, n ≤ k ∧ k < n + joins operations ∧ s.id = idAfter k := by
  obtain ⟨before, operation, after, rfl, harrival⟩ := mem_members.1 h
  obtain ⟨hjoin, hid, -⟩ := arrival_eq_some harrival
  have hcount : joins (operation :: after) = joins after + 1 := by rw [joins_cons, if_pos hjoin]
  exact ⟨n + joins before, by omega, by rw [joins_append]; omega, hid⟩

/-- As long as the numbers do not repeat, the consumers stand in the order of joining. -/
theorem members_sorted {n : Nat} {operations : List (Operation C)}
    (hjoins : n + joins operations ≤ 2 ^ 64) :
    Sorted (members n operations) := by
  induction operations generalizing n with
  | nil => exact List.Pairwise.nil
  | cons operation later ih =>
    have hcount : joins (operation :: later) = joins [operation] + joins later :=
      joins_append [operation] later
    have hlater := ih (n := n + joins [operation]) (by omega)
    rw [members]
    cases harrival : operation.arrival n later with
    | none => exact hlater
    | some s =>
      obtain ⟨hjoin, hid, -⟩ := arrival_eq_some harrival
      have hone : joins [operation] = 1 := by rw [joins_cons, if_pos hjoin, joins_nil]
      refine List.pairwise_cons.2 ⟨fun s' hs' => ?_, hlater⟩
      obtain ⟨k, hle, hlt, hid'⟩ := id_of_mem_members hs'
      rw [hid, hid']
      exact idAfter_lt (by omega) (by omega)

end Hub

end DepthFeed

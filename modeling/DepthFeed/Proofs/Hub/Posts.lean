import Mathlib.Data.List.Induction
import Mathlib.Data.List.Nodup
import DepthFeed.Proofs.Hub.History
import DepthFeed.Proofs.Hub.Serial

/-!
# Runs on a hub

`Hub.performAll` performs a list of operations on a hub in silent mode. Its log lists which consumer
was given which event, and with what verdict.

* `Hub.subscriptions_perform`: what an operation does to the subscriptions.
* `Hub.subscriptions_performAll`: after a run on a new hub they are the members that the operations tell.
* `Hub.postsTo_performAll`: what a consumer is given during a run.
-/

namespace DepthFeed

namespace Hub

variable {C : Type}

inductive Answer (C : Type) where
  | joined (id : SubscriptionId)
  /-- The subscription that ended, if there was one. -/
  | left (ended : Option (Subscription C))
  | forgotten
  /-- The report of a dispatch, and its posts one after the other. -/
  | dispatched (report : Except Fault Report) (posts : List (SubscriptionId × Post))

def Answer.joined? : Answer C → Option SubscriptionId
  | .joined id => some id
  | _ => none

def Answer.posts : Answer C → List (SubscriptionId × Post)
  | .dispatched _ posts => posts
  | _ => []

/-- The posts to the consumer of number `id`. -/
def postsTo (id : SubscriptionId) (answers : List (Answer C)) : List Post :=
  ((answers.flatMap Answer.posts).filter (·.1 = id)).map Prod.snd

variable [Consumer C]

/-- Who is given an event by a dispatch, one after the other, and with what verdict. -/
def posts (hub : Hub C) (e : Event) : List (SubscriptionId × Post) :=
  hub.subscriptions.filterMap fun s => (s.deliver e).verdict.map fun verdict => (s.id, ⟨e, verdict⟩)

def perform (hub : Hub C) : Operation C → Answer C × Hub C
  | .subscribe consumer interest =>
    let (id, hub, _) := hub.subscribe consumer interest
    (.joined id, hub)
  | .unsubscribe id =>
    let (ended, hub, _) := hub.unsubscribe id
    (.left ended, hub)
  | .forget stream => (.forgotten, (hub.forget stream).1)
  | .dispatch now e =>
    let out := hub.dispatch .silent now e
    (.dispatched out.report (hub.posts e), out.hub)

def performAll (hub : Hub C) (operations : List (Operation C)) : List (Answer C) × Hub C :=
  runWith perform hub operations

/-! ## One operation -/

/-- A silent dispatch gives the event to every consumer, and joins none. -/
theorem dispatch_silent (hub : Hub C) (now : Int64) (e : Event) :
    (hub.dispatch .silent now e).hub.subscriptions =
        hub.subscriptions.map (fun s => (s.deliver e).subscription) ∧
      (hub.dispatch .silent now e).hub.nextId = hub.nextId := by
  obtain ⟨report, -, hdispatches⟩ := hub.dispatches now e
  exact ⟨hdispatches.subscriptions_eq, hdispatches.nextId_eq⟩

theorem subscriptions_dispatchEach (hub : Hub C) (clock : Nat → Int64) (n : Nat)
    (events : List Event) :
    (hub.dispatchEach .silent clock n events).2.subscriptions =
      hub.subscriptions.map (·.deliverEach events) := by
  induction events generalizing hub n with
  | nil => exact (List.map_id' _).symm
  | cons e events ih =>
    rw [dispatchEach_cons, ih, (hub.dispatch_silent (clock n) e).1, List.map_map]
    rfl

omit [Consumer C] in
theorem id_ne_of_sorted_cons {s : Subscription C} {later : List (Subscription C)}
    (hsorted : Sorted (s :: later)) {s' : Subscription C} (hs' : s' ∈ later) : s'.id ≠ s.id := by
  intro hid
  have hlt := (List.pairwise_cons.1 hsorted).1 s' hs'
  exact UInt64.lt_irrefl _ (hid ▸ hlt)

omit [Consumer C] in
/-- Where every number occurs once, taking out the first subscription of a number takes out all. -/
theorem eraseP_eq_filter {subscriptions : List (Subscription C)} (hsorted : Sorted subscriptions)
    (id : SubscriptionId) :
    subscriptions.eraseP (fun s => s.id = id) = subscriptions.filter fun s => s.id ≠ id := by
  induction subscriptions with
  | nil => rfl
  | cons s later ih =>
    by_cases hid : s.id = id
    · have hothers : later.filter (fun s' => s'.id ≠ id) = later := by
        refine List.filter_eq_self.2 fun s' hs' => ?_
        simpa [hid] using id_ne_of_sorted_cons hsorted hs'
      rw [List.eraseP_cons_of_pos (by simpa using hid),
        List.filter_cons_of_neg (by simpa using hid), hothers]
    · rw [List.eraseP_cons_of_neg (by simpa using hid),
        List.filter_cons_of_pos (by simpa using hid), ih (List.pairwise_cons.1 hsorted).2]

/-- A number that nobody has is unsubscribed without effect, any other one with its subscription. -/
theorem unsubscribe_subscriptions {hub : Hub C} (hsorted : Sorted hub.subscriptions)
    (id : SubscriptionId) :
    (hub.unsubscribe id).2.1.subscriptions = hub.subscriptions.filter fun s => s.id ≠ id := by
  rw [← eraseP_eq_filter hsorted]
  unfold unsubscribe
  split
  · rename_i hnone
    refine (List.eraseP_of_forall_not fun s hs => ?_).symm
    exact List.find?_eq_none.1 hnone s hs
  · rfl

theorem unsubscribe_fst (hub : Hub C) (id : SubscriptionId) :
    (hub.unsubscribe id).1 = hub.subscription? id := by
  unfold unsubscribe
  split
  · rename_i hnone
    exact hnone.symm
  · rename_i hsome
    exact hsome.symm

/-- An operation acts on every subscription that is there, and may add one. -/
theorem subscriptions_perform {hub : Hub C} {n : Nat} (hnext : hub.nextId = .ofNat n)
    (hsorted : Sorted hub.subscriptions)
    (operation : Operation C) :
    (hub.perform operation).2.subscriptions =
      hub.subscriptions.filterMap operation.keep ++ (operation.arrival n []).toList := by
  cases operation with
  | subscribe consumer interest =>
    have hkeep : (Operation.subscribe consumer interest).keep = some := rfl
    rw [hkeep, List.filterMap_some]
    simp only [perform, subscribe, hnext]
    rfl
  | unsubscribe id =>
    have hkeep : (Operation.unsubscribe id : Operation C).keep =
      Option.guard fun s => s.id ≠ id := by
        funext s
        by_cases hid : s.id = id <;> simp [Operation.keep, Option.guard, hid]
    rw [hkeep, List.filterMap_eq_filter]
    exact (unsubscribe_subscriptions hsorted id).trans (List.append_nil _).symm
  | forget stream =>
    have hkeep : (Operation.forget stream : Operation C).keep = some := rfl
    rw [hkeep, List.filterMap_some]
    exact (List.append_nil _).symm
  | dispatch now e =>
    have hkeep : (Operation.dispatch now e : Operation C).keep =
      some ∘ fun s => (s.deliver e).subscription := rfl
    rw [hkeep, List.filterMap_eq_map]
    exact (dispatch_silent hub now e).1.trans (List.append_nil _).symm

theorem nextId_perform {hub : Hub C} {n : Nat} (hnext : hub.nextId = .ofNat n)
    (operation : Operation C) :
    (hub.perform operation).2.nextId = .ofNat (n + joins [operation]) := by
  cases operation with
  | subscribe consumer interest =>
    simp only [perform, subscribe, hnext]
    exact (UInt64.ofNat_add n 1).symm
  | unsubscribe id =>
    simp only [perform, unsubscribe]
    split <;> exact hnext
  | forget stream => exact hnext
  | dispatch now e => exact (dispatch_silent hub now e).2.trans hnext

/-! ## Runs -/

theorem performAll_append_singleton (hub : Hub C) (operations : List (Operation C))
    (last : Operation C) :
    hub.performAll (operations ++ [last]) =
      ((hub.performAll operations).1 ++ [((hub.performAll operations).2.perform last).1],
        ((hub.performAll operations).2.perform last).2) := by
  simp [performAll, runWith_append]

variable {capacity : Nat} {hub : Hub C} {notices : List Notice}

omit [Consumer C] in
theorem create_eq_ok (hcreate : create capacity = .ok (hub, notices)) :
    hub =
      { subscriptions := []
        nextId := 0
        monitor := .empty
        stats := .empty
        alerts := .bounded capacity
        droppedAlerts := 0
        dispatched := 0 } := by
  unfold create at hcreate
  split at hcreate
  · cases hcreate
  · exact (Prod.mk.inj (Except.ok.inj hcreate)).1.symm

theorem nextId_performAll (hcreate : create capacity = .ok (hub, notices))
    (operations : List (Operation C)) :
    (hub.performAll operations).2.nextId = .ofNat (joins operations) := by
  induction operations using List.reverseRecOn with
  | nil =>
    obtain rfl := create_eq_ok hcreate
    rfl
  | append_singleton operations last ih =>
    rw [performAll_append_singleton, joins_append]
    exact nextId_perform ih last

/-- After a run on a new hub, its subscriptions are the members that the operations tell. -/
theorem subscriptions_performAll (hcreate : create capacity = .ok (hub, notices))
    {operations : List (Operation C)} (hjoins : joins operations ≤ 2 ^ 64) :
    (hub.performAll operations).2.subscriptions = members 0 operations := by
  induction operations using List.reverseRecOn with
  | nil =>
    obtain rfl := create_eq_ok hcreate
    rfl
  | append_singleton operations last ih =>
    rw [joins_append] at hjoins
    have hmembers := ih (by omega)
    have hsorted : Sorted (hub.performAll operations).2.subscriptions := by
      rw [hmembers]
      exact members_sorted (by omega)
    rw [performAll_append_singleton, members_append_singleton, Nat.zero_add,
      subscriptions_perform (nextId_performAll hcreate operations) hsorted, hmembers]

theorem sorted_performAll (hcreate : create capacity = .ok (hub, notices))
    {operations : List (Operation C)} (hjoins : joins operations ≤ 2 ^ 64) :
    Sorted (hub.performAll operations).2.subscriptions := by
  rw [subscriptions_performAll hcreate hjoins]
  exact members_sorted (by omega)

omit [Consumer C] in
theorem find?_of_mem {subscriptions : List (Subscription C)} (hsorted : Sorted subscriptions)
    {s : Subscription C} (hs : s ∈ subscriptions) :
    subscriptions.find? (fun s' => s'.id = s.id) = some s := by
  induction subscriptions with
  | nil => cases hs
  | cons first later ih =>
    rcases List.mem_cons.1 hs with rfl | hlater
    · exact List.find?_cons_of_pos (by simp)
    · have hne := id_ne_of_sorted_cons hsorted hlater
      rw [List.find?_cons_of_neg (by simpa using hne.symm)]
      exact ih (List.pairwise_cons.1 hsorted).2 hlater

omit [Consumer C] in
theorem mem_of_subscription? {id : SubscriptionId} {s : Subscription C}
    (h : hub.subscription? id = some s) : s ∈ hub.subscriptions ∧ s.id = id :=
  ⟨List.mem_of_find?_eq_some h, by simpa using List.find?_some h⟩

theorem subscription?_of_joins_le (hcreate : create capacity = .ok (hub, notices))
    {operations : List (Operation C)} {n : Nat} (hle : joins operations ≤ n) (hn : n < 2 ^ 64) :
    (hub.performAll operations).2.subscription? (idAfter n) = none := by
  refine Option.eq_none_iff_forall_ne_some.2 fun s hs => ?_
  obtain ⟨hmem, hid⟩ := mem_of_subscription? hs
  rw [subscriptions_performAll hcreate (by omega)] at hmem
  obtain ⟨k, -, hlt, hid'⟩ := id_of_mem_members hmem
  have hk := toNat_idAfter (n := k) (by omega)
  rw [← hid', hid, toNat_idAfter hn] at hk
  omega

/-- A consumer that joined is there until it leaves, as the events since then made it. -/
theorem subscription?_performAll (hcreate : create capacity = .ok (hub, notices))
    {before after : List (Operation C)} {join : Operation C} (hjoin : join.isJoin = true)
    (hjoins : joins (before ++ join :: after) ≤ 2 ^ 64) :
    (hub.performAll (before ++ join :: after)).2.subscription? (idAfter (joins before)) =
      join.arrival (joins before) after := by
  have hmembers := subscriptions_performAll hcreate hjoins
  have hsorted := sorted_performAll hcreate hjoins
  have hcount : joins (join :: after) = joins after + 1 := by rw [joins_cons, if_pos hjoin]
  cases harrival : join.arrival (joins before) after with
  | some s =>
    have hmem : s ∈ members 0 (before ++ join :: after) :=
      mem_members.2 ⟨before, join, after, rfl, by rwa [Nat.zero_add]⟩
    rw [← hmembers] at hmem
    rw [← (arrival_eq_some harrival).2.1]
    exact find?_of_mem hsorted hmem
  | none =>
    refine Option.eq_none_iff_forall_ne_some.2 fun s hs => ?_
    obtain ⟨hmem, hid⟩ := mem_of_subscription? hs
    rw [hmembers] at hmem
    obtain ⟨before', join', after', hsplit, harrival'⟩ := mem_members.1 hmem
    rw [Nat.zero_add] at harrival'
    obtain ⟨hjoin', hid', -⟩ := arrival_eq_some harrival'
    -- The one found joined under the same number, so it is the one that joined there and left.
    have hcount' : joins before = joins before' := by
      have htotal := congrArg joins hsplit
      have hcons' : joins (join' :: after') = joins after' + 1 := by
        rw [joins_cons, if_pos hjoin']
      rw [joins_append] at hjoins
      rw [joins_append, joins_append] at htotal
      rw [← toNat_idAfter (n := joins before) (by omega), ← hid, hid', toNat_idAfter (by omega)]
    obtain ⟨rfl, rfl⟩ := join_unique hjoin hjoin' hsplit hcount'
    rw [← hcount', harrival] at harrival'
    cases harrival'

/-! ## Posts -/

omit [Consumer C] in
@[simp]
theorem postsTo_append (id : SubscriptionId) (earlier later : List (Answer C)) :
    postsTo id (earlier ++ later) = postsTo id earlier ++ postsTo id later := by
  simp [postsTo]

def Operation.post? : Operation C → Subscription C → Option Post
  | .dispatch _ e, s => (s.deliver e).verdict.map (⟨e, ·⟩)
  | _, _ => none

theorem post?_attending (operation : Operation C) (id : SubscriptionId) (interest : Interest)
    (consumer : C) (events : List Event) :
    operation.post? (.attending id interest consumer events) =
      (operation.eventFor? interest).map fun e =>
        ⟨e, (Consumer.post (Consumer.attend consumer events).2 e).verdict⟩ := by
  cases operation with
  | dispatch now e =>
    simp only [Operation.post?, Operation.eventFor?, Subscription.verdict_deliver,
      Subscription.attending]
    split <;> rfl
  | subscribe consumer interest => rfl
  | unsubscribe id => rfl
  | forget stream => rfl

omit [Consumer C] in
/-- What is found under a number is all that is found there. -/
theorem filter_filterMap_eq_find? {subscriptions : List (Subscription C)}
    (hsorted : Sorted subscriptions) (id : SubscriptionId) (post? : Subscription C → Option Post) :
    ((subscriptions.filterMap fun s => (post? s).map (s.id, ·)).filter (·.1 = id)).map Prod.snd =
      ((subscriptions.find? fun s => s.id = id).bind post?).toList := by
  induction subscriptions with
  | nil => rfl
  | cons s later ih =>
    by_cases hid : s.id = id
    · have hothers : (later.filterMap fun s => (post? s).map (s.id, ·)).filter (·.1 = id) = [] := by
        refine List.filter_eq_nil_iff.2 fun post hpost => ?_
        obtain ⟨s', hs', hpost'⟩ := List.mem_filterMap.1 hpost
        obtain ⟨p, -, rfl⟩ := Option.map_eq_some_iff.1 hpost'
        simpa [hid] using id_ne_of_sorted_cons hsorted hs'
      rw [List.find?_cons_of_pos (by simpa using hid), Option.bind_some, List.filterMap_cons]
      cases post? s with
      | none => simp [hothers]
      | some p => simp [hid, hothers]
    · rw [List.find?_cons_of_neg (by simpa using hid), ← ih (List.pairwise_cons.1 hsorted).2,
        List.filterMap_cons]
      cases post? s with
      | none => rfl
      | some p => simp [hid]

/-- An operation posts at most once to each number. -/
theorem postsTo_perform {hub : Hub C} (hsorted : Sorted hub.subscriptions) (id : SubscriptionId)
    (operation : Operation C) :
    postsTo id [(hub.perform operation).1] =
      ((hub.subscription? id).bind operation.post?).toList := by
  cases operation with
  | dispatch now e =>
    rw [subscription?, ← filter_filterMap_eq_find? hsorted]
    simp [postsTo, perform, Answer.posts, posts, Operation.post?, Function.comp_def]
  | subscribe consumer interest => cases hub.subscription? id <;> rfl
  | unsubscribe other => cases hub.subscription? id <;> rfl
  | forget stream => cases hub.subscription? id <;> rfl

theorem postsTo_append_singleton (hcreate : create capacity = .ok (hub, notices))
    {operations : List (Operation C)} (hjoins : joins operations ≤ 2 ^ 64) (id : SubscriptionId)
    (last : Operation C) :
    postsTo id (hub.performAll (operations ++ [last])).1 =
      postsTo id (hub.performAll operations).1 ++
        (((hub.performAll operations).2.subscription? id).bind last.post?).toList := by
  rw [performAll_append_singleton, postsTo_append,
    postsTo_perform (sorted_performAll hcreate hjoins)]

theorem postsTo_of_joins_le (hcreate : create capacity = .ok (hub, notices))
    {operations : List (Operation C)} {n : Nat} (hle : joins operations ≤ n) (hn : n < 2 ^ 64) :
    postsTo (idAfter n) (hub.performAll operations).1 = [] := by
  induction operations using List.reverseRecOn with
  | nil => rfl
  | append_singleton operations last ih =>
    rw [joins_append] at hle
    rw [postsTo_append_singleton hcreate (by omega), ih (by omega),
      subscription?_of_joins_le hcreate (by omega) hn]
    rfl

/-- A consumer is given what it would be given on its own: the events that it wants among those
dispatched during its stay. -/
theorem postsTo_performAll (hcreate : create capacity = .ok (hub, notices))
    {before after : List (Operation C)} {consumer : C} {interest : Interest}
    (hjoins : joins (before ++ .subscribe consumer interest :: after) ≤ 2 ^ 64) :
    postsTo (idAfter (joins before))
        (hub.performAll (before ++ .subscribe consumer interest :: after)).1 =
      (Consumer.attend consumer
        (eventsFor interest (stay (idAfter (joins before)) after))).1 := by
  have hjoin : (Operation.subscribe consumer interest).isJoin = true := rfl
  induction after using List.reverseRecOn with
  | nil =>
    rw [joins_append, joins_cons, if_pos hjoin] at hjoins
    rw [postsTo_append_singleton hcreate (by omega), postsTo_of_joins_le hcreate le_rfl (by omega),
      subscription?_of_joins_le hcreate le_rfl (by omega)]
    rfl
  | append_singleton after last ih =>
    rw [← List.cons_append, ← List.append_assoc] at hjoins ⊢
    have hearlier : joins (before ++ .subscribe consumer interest :: after) ≤ 2 ^ 64 := by
      rw [joins_append] at hjoins
      omega
    rw [postsTo_append_singleton hcreate hearlier, ih hearlier,
      subscription?_performAll hcreate hjoin hearlier, eventsFor_stay_append_singleton]
    by_cases hleaves : leaves (idAfter (joins before)) after
    · have hgone : (Operation.subscribe consumer interest).arrival (joins before) after = none :=
        if_pos hleaves
      rw [hgone, if_pos hleaves, List.append_nil]
      exact List.append_nil _
    · have hthere : (Operation.subscribe consumer interest).arrival (joins before) after =
        some (.attending (idAfter (joins before)) interest consumer (eventsFor interest after)) :=
          if_neg hleaves
      rw [hthere, if_neg hleaves, stay_of_not_leaves (Bool.eq_false_iff.2 hleaves),
        Option.bind_some, post?_attending]
      cases last.eventFor? interest with
      | none => simp
      | some e =>
        rw [Option.map_some, Option.toList_some, Option.toList_some,
          Consumer.attend_append_singleton]

end Hub

end DepthFeed

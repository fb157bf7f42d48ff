import DepthFeed.Consumer.Script
import DepthFeed.Proofs.Hub.Posts

/-!
# Consumers do not notice each other

What a run on a new hub is to the consumers, in terms of what was done.

* `Hub.Serves`: a consumer is given what it wants while it is there, answers and ends as it would on
  its own, and has its posts counted.
* `Hub.Orderly`: numbers are given and taken back, and posts are made, in the order of joining.
* `Hub.performAll_isolates`: a consumer is served alike in any two runs that dispatch the same to it.
-/

namespace DepthFeed

namespace Hub

variable {C : Type} [Consumer C] {capacity : Nat} {hub : Hub C} {notices : List Notice}

/-! ## What a run owes to its consumers -/

/-- A consumer of number `id` joined and did not leave after that. -/
def Registered (id : SubscriptionId) (operations : List (Operation C)) : Prop :=
  ∃ before consumer interest after, operations = before ++ .subscribe consumer interest :: after ∧
    id = idAfter (joins before) ∧ leaves id after = false

/-- The wanted events that are dispatched during the stay of a consumer that joins between two lists
of operations. -/
def eventsDuring (interest : Interest) (before after : List (Operation C)) : List Event :=
  eventsFor interest (stay (idAfter (joins before)) after)

/-- The subscription of a consumer that joins between two lists of operations, at the end of its
stay. -/
def lastSubscription (hub : Hub C) (before : List (Operation C)) (consumer : C)
    (interest : Interest) (after : List (Operation C)) : Option (Subscription C) :=
  (hub.performAll (before ++ .subscribe consumer interest ::
    stay (idAfter (joins before)) after)).2.subscription? (idAfter (joins before))

def postsDuring (hub : Hub C) (before : List (Operation C)) (consumer : C) (interest : Interest)
    (after : List (Operation C)) : List Post :=
  postsTo (idAfter (joins before))
    (hub.performAll (before ++ .subscribe consumer interest :: after)).1

/-- How a hub serves the consumer that joins it between two lists of operations. -/
structure Serves (hub : Hub C) (before : List (Operation C)) (consumer : C) (interest : Interest)
    (after : List (Operation C)) : Prop where
  joined_eq :
    ((hub.performAll before).2.perform (.subscribe consumer interest)).1 =
      .joined (idAfter (joins before))
  /-- The consumer is given what it wants of the events dispatched during its stay, each of them
  once and in their order. -/
  events_eq :
    (hub.postsDuring before consumer interest after).map Post.event =
      eventsDuring interest before after
  posts_eq :
    hub.postsDuring before consumer interest after =
      (Consumer.attend consumer (eventsDuring interest before after)).1
  /-- It ends as it would on its own, with its posts counted. -/
  lastSubscription_eq :
    hub.lastSubscription before consumer interest after = some {
      id := idAfter (joins before)
      interest := interest
      consumer := (Consumer.attend consumer (eventsDuring interest before after)).2
      tally := .of (hub.postsDuring before consumer interest after) }
  /-- Each of its posts is counted as delivered or failed. -/
  delivered_add_failures (s : Subscription C) :
    hub.lastSubscription before consumer interest after = some s →
      s.tally.delivered + s.tally.failures =
        .ofNat (hub.postsDuring before consumer interest after).length
  /-- It is there until it leaves, and nobody is there under its number after that. -/
  subscription?_eq :
    (hub.performAll (before ++ .subscribe consumer interest :: after)).2.subscription?
        (idAfter (joins before)) =
      if leaves (idAfter (joins before)) after then none
      else hub.lastSubscription before consumer interest after

/-- How a run on a hub goes, whoever the consumers are. -/
structure Orderly (hub : Hub C) (operations : List (Operation C)) : Prop where
  /-- Consumers get ascending numbers. -/
  joined_sorted :
    ((hub.performAll operations).1.filterMap Answer.joined?).Pairwise fun id id' =>
      id.number < id'.number
  /-- There are counts for the registered numbers. -/
  isSome_tally? (id : SubscriptionId) :
    ((hub.performAll operations).2.tally? id).isSome ↔ Registered id operations
  /-- A subscription is ended if its number is registered, and no other one is. -/
  unsubscribe (id : SubscriptionId) :
    ∃ ended, ((hub.performAll operations).2.perform (.unsubscribe id)).1 = .left ended ∧
      (ended.isSome ↔ Registered id operations) ∧
      ended = (hub.performAll operations).2.subscription? id ∧
      ((hub.performAll operations).2.perform (.unsubscribe id)).2.subscriptions =
        (hub.performAll operations).2.subscriptions.filter fun s => s.id ≠ id
  /-- An event is given to its consumers in the order in which they joined. -/
  dispatch (now : Int64) (e : Event) :
    ∃ report posts, ((hub.performAll operations).2.perform (.dispatch now e)).1 =
        .dispatched report posts ∧
      posts.Pairwise (fun p p' => p.1.number < p'.1.number) ∧ ∀ p ∈ posts, p.2.event = e

theorem joined_subscribe (hcreate : create capacity = .ok (hub, notices))
    (operations : List (Operation C)) (consumer : C) (interest : Interest) :
    ((hub.performAll operations).2.perform (.subscribe consumer interest)).1 =
      .joined (idAfter (joins operations)) := by
  simp only [perform, subscribe, nextId_performAll hcreate operations]
  rfl

theorem serves (hcreate : create capacity = .ok (hub, notices))
    {before after : List (Operation C)} {consumer : C} {interest : Interest}
    (hjoins : joins (before ++ .subscribe consumer interest :: after) ≤ 2 ^ 64) :
    hub.Serves before consumer interest after := by
  have hjoin : (Operation.subscribe consumer interest).isJoin = true := rfl
  have hposts : hub.postsDuring before consumer interest after =
      (Consumer.attend consumer (eventsDuring interest before after)).1 :=
    postsTo_performAll hcreate hjoins
  have hlast : hub.lastSubscription before consumer interest after =
      some (.attending (idAfter (joins before)) interest consumer
        (eventsDuring interest before after)) := by
    have hstay : joins (stay (idAfter (joins before)) after) ≤ joins after :=
      (List.takeWhile_sublist _).countP_le
    have hjoins' : joins (before ++ .subscribe consumer interest ::
        stay (idAfter (joins before)) after) ≤ 2 ^ 64 := by
      rw [joins_append, joins_cons] at hjoins ⊢
      omega
    refine (subscription?_performAll hcreate hjoin hjoins').trans ?_
    exact if_neg (Bool.eq_false_iff.1 (leaves_stay _ after))
  constructor
  · exact joined_subscribe hcreate before consumer interest
  · rw [hposts]
    exact Consumer.attend_events consumer _
  · exact hposts
  · rw [hlast, hposts]
    rfl
  · intro s hs
    obtain rfl := Option.some.inj (hlast.symm.trans hs)
    rw [hposts]
    exact Tally.delivered_add_failures _
  · rw [subscription?_performAll hcreate hjoin hjoins, hlast, Operation.arrival]
    split
    · rfl
    · rename_i hleaves
      rw [eventsDuring, stay_of_not_leaves (Bool.eq_false_iff.2 hleaves)]

theorem isSome_subscription?_iff (hcreate : create capacity = .ok (hub, notices))
    {operations : List (Operation C)} (hjoins : joins operations ≤ 2 ^ 64) (id : SubscriptionId) :
    ((hub.performAll operations).2.subscription? id).isSome ↔ Registered id operations := by
  constructor
  · intro h
    obtain ⟨s, hs⟩ := Option.isSome_iff_exists.1 h
    obtain ⟨hmem, rfl⟩ := mem_of_subscription? hs
    rw [subscriptions_performAll hcreate hjoins] at hmem
    obtain ⟨before, join, after, rfl, harrival⟩ := mem_members.1 hmem
    rw [Nat.zero_add] at harrival
    obtain ⟨hjoin, hid, hleaves⟩ := arrival_eq_some harrival
    cases join with
    | subscribe consumer interest => exact ⟨before, consumer, interest, after, rfl, hid, hid ▸ hleaves⟩
    | unsubscribe id => cases hjoin
    | forget stream => cases hjoin
    | dispatch now e => cases hjoin
  · rintro ⟨before, consumer, interest, after, rfl, rfl, hleaves⟩
    rw [subscription?_performAll hcreate rfl hjoins, Operation.arrival,
      if_neg (Bool.eq_false_iff.1 hleaves)]
    rfl

/-- The numbers that a run gives are the words in their order, over and over. -/
theorem joined_performAll (hcreate : create capacity = .ok (hub, notices))
    (operations : List (Operation C)) :
    (hub.performAll operations).1.filterMap Answer.joined? =
      (List.range (joins operations)).map idAfter := by
  induction operations using List.reverseRecOn with
  | nil => rfl
  | append_singleton operations last ih =>
    rw [performAll_append_singleton, List.filterMap_append, ih, joins_append]
    cases last with
    | subscribe consumer interest =>
      have hone : joins [Operation.subscribe consumer interest] = 1 := rfl
      rw [hone, List.range_succ, List.map_append, joined_subscribe hcreate]
      rfl
    | unsubscribe id => exact List.append_nil _
    | forget stream => exact List.append_nil _
    | dispatch now e => exact List.append_nil _

/-- The numbers are different exactly as long as there are enough words. -/
theorem nodup_map_idAfter_iff (n : Nat) :
    ((List.range n).map idAfter).Nodup ↔ n ≤ 2 ^ 64 := by
  constructor
  · intro hnodup
    by_contra hlt
    have hinj := List.inj_on_of_nodup_map hnodup
    have hsame : idAfter 0 = idAfter (2 ^ 64) := rfl
    have hzero := hinj (List.mem_range.2 (by omega)) (List.mem_range.2 (by omega)) hsame
    omega
  · intro hle
    refine List.Nodup.map_on (fun m hm k hk hid => ?_) List.nodup_range
    rw [← toNat_idAfter (n := m) (by have := List.mem_range.1 hm; omega), hid,
      toNat_idAfter (by have := List.mem_range.1 hk; omega)]

/-- The posts of a dispatch are those of its event, in the order in which their consumers joined. -/
theorem posts_sorted {hub : Hub C} (hsorted : Sorted hub.subscriptions) (e : Event) :
    (hub.posts e).Pairwise (fun p p' => p.1.number < p'.1.number) ∧
      ∀ p ∈ hub.posts e, p.2.event = e := by
  constructor
  · refine List.Pairwise.filterMap _ (fun s s' hlt p hp p' hp' => ?_) hsorted
    obtain ⟨_, -, rfl⟩ := Option.map_eq_some_iff.1 hp
    obtain ⟨_, -, rfl⟩ := Option.map_eq_some_iff.1 hp'
    exact hlt
  · intro p hp
    obtain ⟨s, -, hpost⟩ := List.mem_filterMap.1 hp
    obtain ⟨_, -, rfl⟩ := Option.map_eq_some_iff.1 hpost
    rfl

theorem orderly (hcreate : create capacity = .ok (hub, notices))
    {operations : List (Operation C)} (hjoins : joins operations ≤ 2 ^ 64) :
    hub.Orderly operations := by
  have hsorted := sorted_performAll hcreate hjoins
  have hregistered := isSome_subscription?_iff hcreate hjoins
  constructor
  · rw [joined_performAll hcreate, List.pairwise_map]
    refine List.pairwise_lt_range.imp_of_mem fun _ hk hlt => ?_
    exact idAfter_lt hlt (by have := List.mem_range.1 hk; omega)
  · intro id
    rw [tally?, Option.isSome_map]
    exact hregistered id
  · intro id
    exact ⟨_, congrArg Answer.left (unsubscribe_fst _ id), hregistered id, rfl,
      unsubscribe_subscriptions hsorted id⟩
  · intro now e
    exact ⟨_, _, rfl, posts_sorted hsorted e⟩

/-- As long as no number is given twice, which takes more than `2 ^ 64` consumers, a consumer is
served as if it were alone: with the same events while it is there, it answers and ends in the same
way in any two runs, whatever the other consumers do, and whether there are any. -/
theorem performAll_isolates (hcreate : create capacity = .ok (hub, notices))
    (operations : List (Operation C)) :
    (((hub.performAll operations).1.filterMap Answer.joined?).Nodup ↔
      joins operations ≤ 2 ^ 64) ∧
    (joins operations ≤ 2 ^ 64 →
      hub.Orderly operations ∧
      ∀ before consumer interest after,
        operations = before ++ .subscribe consumer interest :: after →
        hub.Serves before consumer interest after ∧
        ∀ capacity' (hub' : Hub C) notices' before' after',
          create capacity' = .ok (hub', notices') →
          joins (before' ++ .subscribe consumer interest :: after') ≤ 2 ^ 64 →
          eventsDuring interest before' after' = eventsDuring interest before after →
          hub'.postsDuring before' consumer interest after' =
            hub.postsDuring before consumer interest after ∧
          (hub'.lastSubscription before' consumer interest after').map
              (fun s => (s.consumer, s.tally)) =
            (hub.lastSubscription before consumer interest after).map
              (fun s => (s.consumer, s.tally))) := by
  refine ⟨?_, fun hjoins => ⟨orderly hcreate hjoins, ?_⟩⟩
  · rw [joined_performAll hcreate]
    exact nodup_map_idAfter_iff _
  · rintro before consumer interest after rfl
    have hserves := serves hcreate hjoins
    refine ⟨hserves, ?_⟩
    intro capacity' hub' notices' before' after' hcreate' hjoins' hevents
    have hserves' := serves hcreate' hjoins'
    have hposts : hub'.postsDuring before' consumer interest after' =
        hub.postsDuring before consumer interest after := by
      rw [hserves'.posts_eq, hserves.posts_eq, hevents]
    refine ⟨hposts, ?_⟩
    rw [hserves'.lastSubscription_eq, hserves.lastSubscription_eq, hposts, hevents]
    rfl

/-- A consumer that takes one event, breaks down on the next one and refuses the last one, next to
one that leaves early. -/
theorem performAll_isolates_failing :
    ∃ (hub : Hub ScriptedConsumer) (notices : List Notice),
      create 1 = .ok (hub, notices) ∧
      let quote (sequence : Int64) (instrument : Int32) : Event :=
        ⟨sequence, 0, .buy, ⟨100⟩, ⟨1⟩, .update, ⟨instrument⟩, ⟨1⟩, none⟩
      let steady : ScriptedConsumer := ⟨"steady", .accept, [], none, []⟩
      let shaky : ScriptedConsumer := ⟨"shaky", .accept, [(2, .crash), (4, .reject)], none, []⟩
      let before : List (Operation ScriptedConsumer) := [.subscribe steady .all]
      let after : List (Operation ScriptedConsumer) :=
        [.dispatch 0 (quote 1 7), .unsubscribe (idAfter 0), .dispatch 0 (quote 2 7),
          .dispatch 0 (quote 3 8), .forget ⟨⟨1⟩, ⟨7⟩⟩, .dispatch 0 (quote 4 7)]
      let last := (hub.performAll (before ++ .subscribe shaky (.only ⟨7⟩) :: after)).2
      last.tally? (idAfter 0) = none ∧ last.tally? (idAfter 1) = some ⟨1, 2, 1⟩ ∧
        (last.subscription? (idAfter 1)).map (·.consumer.seen) = some [4, 2, 1] := by
  obtain ⟨hub, notices, hcreate⟩ : ∃ (hub : Hub ScriptedConsumer) (notices : List Notice),
    create 1 = .ok (hub, notices) := ⟨_, _, rfl⟩
  refine ⟨hub, notices, hcreate, ?_⟩
  intro quote steady shaky before after last
  have hrun := (performAll_isolates hcreate (before ++ .subscribe shaky (.only ⟨7⟩) :: after)).2
    (by decide)
  have hshaky := (hrun.2 before shaky (.only ⟨7⟩) after rfl).1
  have hsteady := (hrun.2 [] steady .all (.subscribe shaky (.only ⟨7⟩) :: after) rfl).1
  have hlast : last.subscription? (idAfter 1) = _ := hshaky.subscription?_eq
  have hgone : last.subscription? (idAfter 0) = _ := hsteady.subscription?_eq
  rw [hshaky.lastSubscription_eq, hshaky.posts_eq] at hlast
  rw [tally?, tally?, hlast, hgone]
  exact ⟨rfl, rfl, rfl⟩

end Hub

end DepthFeed

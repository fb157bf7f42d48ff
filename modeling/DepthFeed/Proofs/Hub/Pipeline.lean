import DepthFeed.Consumer.Script
import DepthFeed.Proofs.Consumer.Publication
import DepthFeed.Proofs.Hub.Drain
import DepthFeed.Proofs.Hub.Posts

/-!
# From a ring to a published book

A `Pipeline` is a hub and the ring that it takes its events from. Writers offer events to the ring;
the hub takes them out in batches, or by following the ring.

* `Pipeline.Entry`: what a step of a pipeline tells. A log of them tells which events were taken by
  the ring, which of these were dispatched, and which still wait.
* `Pipeline.Reached`: each subscription is as the dispatched events left it, and the ring holds the
  waiting ones.
* `Pipeline.run_publishes`: a publisher shows the book of its instrument as it was after the last whole
  round of the events dispatched to it.
-/

namespace DepthFeed

variable {C : Type}

/-! ## Pipelines -/

/-- A hub and the ring that it takes its events from. -/
structure Pipeline (C : Type) where
  hub : Hub C
  source : Pipe Event

namespace Pipeline

inductive Operation where
  | write (writer : Nat) (e : Event)
  | addWriter (writer : Nat)
  | closeWriter (writer : Nat)
  /-- At most `limit` events are dispatched; the clock tells the time of each dispatch. -/
  | pump (clock : Nat → Int64) (limit : Nat)
  /-- The hub follows the ring until it is over, and drains it then, or until it waits for a writer. -/
  | run (clock : Nat → Int64) (stop : Bool)

inductive Entry where
  | taken (e : Event)
  /-- There was no room for the event, or its writer was closed. -/
  | refused (e : Event)
  | granted (grant : WriterGrant)
  | closed (wasOpen : Bool)
  | dispatched (count : Nat)
deriving DecidableEq, Repr

def Entry.taken? : Entry → Option Event
  | .taken e => some e
  | _ => none

/-- How many events were dispatched. -/
def Entry.count : Entry → Nat
  | .dispatched count => count
  | _ => 0

/-- The events that the ring took, in order. -/
def taken (log : List Entry) : List Event := log.filterMap Entry.taken?

/-- How many events were dispatched. -/
def reach (log : List Entry) : Nat := (log.map Entry.count).sum

/-- The taken events that were dispatched. -/
def dispatched (log : List Entry) : List Event := (taken log).take (reach log)

/-- The taken events that were not yet dispatched. -/
def waiting (log : List Entry) : List Event := (taken log).drop (reach log)

variable [Consumer C]

def perform (p : Pipeline C) : Operation → Entry × Pipeline C
  | .write writer e =>
    let (taken, source) := p.source.write writer e
    (if taken = some true then .taken e else .refused e, { p with source := source })
  | .addWriter writer =>
    let (grant, source) := p.source.addWriter writer
    (.granted grant, { p with source := source })
  | .closeWriter writer =>
    let (wasOpen, source) := p.source.closeWriter writer
    (.closed wasOpen, { p with source := source })
  | .pump clock limit =>
    let s := p.hub.dispatchUpTo .silent clock p.source limit
    (.dispatched s.dispatched, ⟨s.hub, s.source⟩)
  | .run clock stop =>
    let s := (p.hub.run .silent clock p.source stop .drain).1
    (.dispatched s.dispatched, ⟨s.hub, s.source⟩)

def run (p : Pipeline C) (operations : List Operation) : List Entry × Pipeline C :=
  runWith perform p operations

/-! ## Logs -/

section Logs

variable {log : List Entry}

omit [Consumer C] in
theorem taken_append_singleton (log : List Entry) (entry : Entry) :
    taken (log ++ [entry]) = taken log ++ entry.taken?.toList := by
  cases hentry : entry.taken? <;> simp [taken, hentry]

omit [Consumer C] in
theorem reach_append_singleton (log : List Entry) (entry : Entry) :
    reach (log ++ [entry]) = reach log + entry.count := by
  simp [reach]

/-- One entry more tells of as many dispatched events as it counts, and of those that it adds to the
waiting ones. -/
theorem dispatched_waiting_append_singleton {entry : Entry}
    (hcount : reach log + entry.count ≤ (taken log).length) :
    dispatched (log ++ [entry]) = dispatched log ++ (waiting log).take entry.count ∧
      waiting (log ++ [entry]) = (waiting log).drop entry.count ++ entry.taken?.toList := by
  constructor
  · rw [dispatched, taken_append_singleton, reach_append_singleton,
      List.take_append_of_le_length hcount, List.take_add, dispatched, waiting]
  · rw [waiting, taken_append_singleton, reach_append_singleton,
      List.drop_append_of_le_length hcount, ← List.drop_drop, waiting]

end Logs

/-! ## One step -/

/-- Each subscription is as the dispatched events left it, and the ring holds the waiting ones. -/
structure Reached (hub : Hub C) (capacity : Nat) (log : List Entry) (p : Pipeline C) : Prop where
  reach_le : reach log ≤ (taken log).length
  subscriptions_eq :
    p.hub.subscriptions = hub.subscriptions.map (·.deliverEach (dispatched log))
  holds : p.source.ring.Holds (waiting log)
  readerOpen_eq : p.source.readerOpen = true
  capacity_eq : p.source.ring.capacity = capacity

namespace Reached

variable {hub : Hub C} {capacity : Nat} {log : List Entry} {p : Pipeline C}

theorem waiting_length (h : Reached hub capacity log p) :
    reach log + (waiting log).length = (taken log).length := by
  rw [waiting, List.length_drop]
  have hle := h.reach_le
  omega

theorem append {p' : Pipeline C} {entry : Entry} (h : Reached hub capacity log p)
    (hcount : entry.count ≤ (waiting log).length)
    (hsubscriptions : p'.hub.subscriptions =
      p.hub.subscriptions.map (·.deliverEach ((waiting log).take entry.count)))
    (hholds : p'.source.ring.Holds ((waiting log).drop entry.count ++ entry.taken?.toList))
    (hopen : p'.source.readerOpen = true) (hcapacity : p'.source.ring.capacity = capacity) :
    Reached hub capacity (log ++ [entry]) p' := by
  have htotal := h.waiting_length
  have hreach : reach log + entry.count ≤ (taken log).length := by omega
  obtain ⟨hdispatched, hwaiting⟩ := dispatched_waiting_append_singleton hreach
  refine ⟨?_, ?_, hwaiting ▸ hholds, hopen, hcapacity⟩
  · rw [reach_append_singleton, taken_append_singleton, List.length_append]
    omega
  · rw [hsubscriptions, h.subscriptions_eq, hdispatched, List.map_map]
    refine List.map_congr_left fun s _ => ?_
    exact (s.deliverEach_append _ _).symm

/-- An operation that dispatches nothing leaves every subscription as it is. -/
theorem quiet {source : Pipe Event} {entry : Entry} (h : Reached hub capacity log p)
    (hentry : entry.count = 0)
    (hholds : source.ring.Holds (waiting log ++ entry.taken?.toList))
    (hopen : source.readerOpen = true) (hcapacity : source.ring.capacity = capacity) :
    Reached hub capacity (log ++ [entry]) { p with source := source } := by
  refine h.append (by omega) ?_ (by rwa [hentry]) hopen hcapacity
  rw [hentry]
  exact (List.map_id' _).symm

/-- A loop that dispatched the first `n` waiting events moves them to the dispatched ones. -/
theorem advance {s s' : Ingest C} {clock : Nat → Int64} {n : Nat} (h : Reached hub capacity log p)
    (hhub : s.hub = p.hub) (hstart : s.dispatched = 0) (hn : n ≤ (waiting log).length)
    (hadvanced : Ingest.Advanced .silent clock s (waiting log) n s')
    (hhandles : p.source.SameHandles s'.source) :
    Reached hub capacity (log ++ [.dispatched s'.dispatched]) ⟨s'.hub, s'.source⟩ := by
  have hcount : (Entry.dispatched s'.dispatched).count = n := by
    rw [Entry.count, hadvanced.dispatched_eq, hstart, Nat.zero_add]
  refine h.append (hcount ▸ hn) ?_ ?_ (hhandles.readerOpen_eq.trans h.readerOpen_eq)
    (hhandles.capacity_eq.trans h.capacity_eq)
  · rw [hcount, hadvanced.hub_eq, hhub]
    exact Hub.subscriptions_dispatchEach _ _ _ _
  · rw [hcount]
    exact (List.append_nil _).symm ▸ hadvanced.holds

theorem write (h : Reached hub capacity log p) (writer : Nat) (e : Event) :
    Reached hub capacity (log ++ [(p.perform (.write writer e)).1])
      (p.perform (.write writer e)).2 := by
  obtain ⟨hanswer, hholds, hhandles⟩ := Pipe.write_of_holds h.holds writer e
  have hopen := hhandles.readerOpen_eq.trans h.readerOpen_eq
  have hcapacity := hhandles.capacity_eq.trans h.capacity_eq
  by_cases htaken : (p.source.write writer e).1 = some true
  · have hentry : (p.perform (.write writer e)).1 = .taken e := if_pos htaken
    rw [hentry]
    rw [if_pos htaken] at hholds
    exact h.quiet rfl hholds hopen hcapacity
  · have hentry : (p.perform (.write writer e)).1 = .refused e := if_neg htaken
    rw [hentry]
    rw [if_neg htaken] at hholds
    exact h.quiet rfl ((List.append_nil _).symm ▸ hholds) hopen hcapacity

/-- Handles come and go without a trace in the ring while it has its reader. -/
theorem handled {source : Pipe Event} {entry : Entry} (h : Reached hub capacity log p)
    (hentry : entry.count = 0) (htaken : entry.taken? = none)
    (hkeeps : source.ring = p.source.ring ∧ source.readerOpen = p.source.readerOpen) :
    Reached hub capacity (log ++ [entry]) { p with source := source } := by
  obtain ⟨hring, hreader⟩ := hkeeps
  refine h.quiet hentry ?_ (hreader.trans h.readerOpen_eq) (hring ▸ h.capacity_eq)
  rw [hring, htaken, Option.toList_none, List.append_nil]
  exact h.holds

theorem perform (h : Reached hub capacity log p) (operation : Operation) :
    Reached hub capacity (log ++ [(p.perform operation).1]) (p.perform operation).2 := by
  cases operation with
  | write writer e => exact h.write writer e
  | addWriter writer => exact h.handled rfl rfl (p.source.addWriter_keeps writer)
  | closeWriter writer => exact h.handled rfl rfl (p.source.closeWriter_keeps h.readerOpen_eq writer)
  | pump clock limit =>
    exact h.advance rfl rfl (Nat.min_le_right _ _)
      (.flushAtMost h.holds rfl limit (Ingest.faultFree_silent _ _ _))
      (Ingest.sameHandles_flushAtMost (Ingest.start p.hub p.source false) limit)
  | run clock stop =>
    exact h.advance rfl rfl le_rfl (p.hub.run_drain h.holds stop) (p.hub.sameHandles_run _ stop)

theorem run (h : Reached hub capacity log p) (operations : List Operation) :
    Reached hub capacity (log ++ (p.run operations).1) (p.run operations).2 := by
  induction operations generalizing p log with
  | nil => exact (List.append_nil log).symm ▸ h
  | cons operation operations ih =>
    have hnext := ih (h.perform operation)
    rwa [List.append_assoc] at hnext

end Reached

/-! ## Runs -/

theorem reached_ofCapacity (hub : Hub C) (kind : WriterKind) {capacity : UInt64}
    (hcapacity : capacity.toNat.isPowerOfTwo) :
    ∃ source, Pipe.ofCapacity kind capacity.toNat = .ok source ∧
      Reached hub capacity.toNat [] ⟨hub, source⟩ := by
  obtain ⟨ring, hring, hholds, hsize⟩ := Ring.holds_ofCapacity (α := Event) hcapacity
  refine ⟨⟨ring, kind, [true], true⟩, by simp [Pipe.ofCapacity, hring], ?_⟩
  exact ⟨Nat.zero_le _, (List.map_id' _).symm, hholds, rfl, hsize⟩

theorem subscription?_of_reached {hub : Hub C} {capacity : Nat} {log : List Entry} {p : Pipeline C}
    (h : Reached hub capacity log p) (id : SubscriptionId) :
    p.hub.subscription? id = (hub.subscription? id).map (·.deliverEach (dispatched log)) := by
  rw [Hub.subscription?, h.subscriptions_eq, List.find?_map, Hub.subscription?]
  congr 2
  funext s
  exact congrArg (decide <| · = id) (s.id_deliverEach _)

/-- What the next step tells, by no more than how many events wait. -/
structure Serves (capacity count : Nat) (p : Pipeline C) : Prop where
  write (writer : Nat) (e : Event) : (p.perform (.write writer e)).1 = .taken e ↔
    p.source.hasWriter writer = true ∧ count < capacity
  pump (clock : Nat → Int64) (limit : Nat) :
    (p.perform (.pump clock limit)).1 = .dispatched (min limit count)
  run (clock : Nat → Int64) (stop : Bool) : (p.perform (.run clock stop)).1 = .dispatched count

theorem Reached.serves {hub : Hub C} {capacity : Nat} {log : List Entry} {p : Pipeline C}
    (h : Reached hub capacity log p) : p.Serves capacity (waiting log).length where
  write writer e := by
    have hanswer := (Pipe.write_of_holds h.holds writer e).1
    rw [h.capacity_eq] at hanswer
    rw [← hanswer]
    show (if (p.source.write writer e).1 = some true then Entry.taken e else .refused e) = _ ↔ _
    by_cases htaken : (p.source.write writer e).1 = some true
    · rw [if_pos htaken]
      exact iff_of_true rfl htaken
    · rw [if_neg htaken]
      exact iff_of_false Entry.noConfusion htaken
  pump clock limit := by
    have hbatch : Ingest.Advanced .silent clock (Ingest.start p.hub p.source false) (waiting log)
        (min limit (waiting log).length) (p.hub.dispatchUpTo .silent clock p.source limit) :=
      .flushAtMost h.holds rfl limit (Ingest.faultFree_silent _ _ _)
    exact congrArg Entry.dispatched (hbatch.dispatched_eq.trans (Nat.zero_add _))
  run clock stop := by
    have hdrained : Ingest.Advanced .silent clock (Hub.beginRun p.hub p.source stop) (waiting log)
        (waiting log).length (p.hub.run .silent clock p.source stop .drain).1 :=
      p.hub.run_drain h.holds stop
    exact congrArg Entry.dispatched (hdrained.dispatched_eq.trans (Nat.zero_add _))

/-- A new publisher behind a ring, next to any other consumers: however its writers and the hub take
turns, it shows the book of its instrument as it was after the last whole round of the events of that
instrument that the ring took and the hub dispatched. -/
theorem run_publishes (kind : WriterKind) {capacity : UInt64}
    (hcapacity : capacity.toNat.isPowerOfTwo) {instrument : Instrument} {tradeRule : TradeRule}
    {depth : Nat} {interval : UInt64} (hinterval : 0 < interval) {interest : Interest}
    (hcovers : interest.Covers instrument) {hub : Hub (BookPublisher ⊕ C)} {id : SubscriptionId}
    (hjoined : hub.subscription? id = some
      ⟨id, interest, .inl (.empty instrument tradeRule depth interval), ⟨0, 0, 0⟩⟩) :
    ∃ source, Pipe.ofCapacity kind capacity.toNat = .ok source ∧ ∀ operations,
      let log := (Pipeline.run ⟨hub, source⟩ operations).1
      let last := (Pipeline.run ⟨hub, source⟩ operations).2
      let own := instrument.own (dispatched log)
      let foreign := instrument.foreign (interest.wanted (dispatched log))
      reach log ≤ (taken log).length ∧
        last.source.ring.Holds (waiting log) ∧
        last.Serves capacity.toNat (waiting log).length ∧
        ∃ publisher : BookPublisher,
          last.hub.subscription? id = some
            ⟨id, interest, .inl publisher, ⟨.ofNat own.length, .ofNat foreign.length, 0⟩⟩ ∧
          publisher.book = .following instrument tradeRule own ∧
          publisher.published =
            (Book.following instrument tradeRule
              (own.take (interval.toNat * (own.length / interval.toNat)))).snapshot depth := by
  obtain ⟨source, hsource, hfirst⟩ := reached_ofCapacity hub kind hcapacity
  refine ⟨source, hsource, fun operations => ?_⟩
  have hreached := hfirst.run operations
  rw [List.nil_append] at hreached
  generalize (Pipeline.run ⟨hub, source⟩ operations).1 = log at hreached ⊢
  obtain ⟨hconsumer, htally⟩ := BookPublisher.attend_empty instrument tradeRule depth hinterval
    (interest.wanted (dispatched log))
  rw [Instrument.own_wanted hcovers] at hconsumer htally
  refine ⟨hreached.reach_le, hreached.holds, hreached.serves,
    .after instrument tradeRule depth interval (instrument.own (dispatched log)), ?_, rfl, rfl⟩
  have hnew : (⟨id, interest, .inl (.empty instrument tradeRule depth interval), ⟨0, 0, 0⟩⟩ :
      Subscription (BookPublisher ⊕ C)) =
      .attending id interest (.inl (.empty instrument tradeRule depth interval)) [] := rfl
  rw [subscription?_of_reached hreached, hjoined, hnew, Option.map_some,
    Subscription.deliverEach_attending, List.nil_append, Subscription.attending,
    Consumer.attend_inl, hconsumer, htally]

/-- A publisher of every second event between a consumer that breaks down and one that refuses: a
ring of two slots has no room for the third event until one was dispatched, and the publisher
refuses the second one, which is of another instrument. -/
theorem run_publishes_between_failing :
    let quote (instrument : Instrument) (sequence : Int64) : Event :=
      ⟨sequence, 0, .buy, ⟨100⟩, ⟨1⟩, .update, instrument, ⟨1⟩, none⟩
    let clock : Nat → Int64 := fun _ => 0
    let crasher : ScriptedConsumer := ⟨"crasher", .crash, [], none, []⟩
    let refuser : ScriptedConsumer := ⟨"refuser", .reject, [], none, []⟩
    let publisher : BookPublisher := .empty ⟨7⟩ .takeResting 5 2
    let operations : List Operation := [.write 0 (quote ⟨7⟩ 1), .write 0 (quote ⟨8⟩ 1),
      .write 0 (quote ⟨7⟩ 2), .pump clock 1, .write 0 (quote ⟨7⟩ 2), .pump clock 5]
    let log : List Entry := [.taken (quote ⟨7⟩ 1), .taken (quote ⟨8⟩ 1), .refused (quote ⟨7⟩ 2),
      .dispatched 1, .taken (quote ⟨7⟩ 2), .dispatched 2]
    ∃ (new hub : Hub (BookPublisher ⊕ ScriptedConsumer)) (source : Pipe Event),
      Hub.create 4 = .ok (new, [.hubReady 4]) ∧
      hub = (((new.subscribe (.inr crasher) .all).2.1.subscribe (.inl publisher) .all).2.1.subscribe
        (.inr refuser) .all).2.1 ∧
      Pipe.ofCapacity .single 2 = .ok source ∧
      (Pipeline.run ⟨hub, source⟩ operations).1 = log ∧
      ∃ shown : BookPublisher,
        (Pipeline.run ⟨hub, source⟩ operations).2.hub.subscription? ⟨1⟩ = some ⟨⟨1⟩, .all, .inl shown, ⟨2, 1, 0⟩⟩ ∧
        shown.published =
          (Book.following ⟨7⟩ .takeResting [quote ⟨7⟩ 1, quote ⟨7⟩ 2]).snapshot 5 := by
  intro quote clock crasher refuser publisher operations log
  let new : Hub (BookPublisher ⊕ ScriptedConsumer) := {
    subscriptions := []
    nextId := 0
    monitor := .empty
    stats := .empty
    alerts := .bounded 4
    droppedAlerts := 0
    dispatched := 0 }
  let hub := (((new.subscribe (.inr crasher) .all).2.1.subscribe (.inl publisher) .all).2.1.subscribe
    (.inr refuser) .all).2.1
  have hjoined : hub.subscription? ⟨1⟩ = some ⟨⟨1⟩, .all, .inl publisher, ⟨0, 0, 0⟩⟩ := rfl
  have hcapacity : (2 : UInt64).toNat.isPowerOfTwo := ⟨1, rfl⟩
  have hinterval : (0 : UInt64) < 2 := by decide
  have hcovers : Interest.all.Covers ⟨7⟩ := trivial
  obtain ⟨source, hsource, hrun⟩ :=
    run_publishes (C := ScriptedConsumer) .single hcapacity hinterval hcovers hjoined
  refine ⟨new, hub, source, rfl, rfl, hsource, ?_⟩
  obtain rfl := Except.ok.inj (hsource.symm.trans (Pipe.ofCapacity_eq .single hcapacity))
  have hlog : (Pipeline.run ⟨hub, ⟨⟨Array.replicate (2 : UInt64).toNat none, 0, 0, 0, 0⟩, .single,
      [true], true⟩⟩ operations).1 = log := by
    decide +kernel
  have hown : Instrument.own ⟨7⟩ (dispatched log) = [quote ⟨7⟩ 1, quote ⟨7⟩ 2] := by decide
  have hforeign : Instrument.foreign ⟨7⟩ (Interest.all.wanted (dispatched log)) =
      [quote ⟨8⟩ 1] := by decide
  have htally : (⟨.ofNat [quote ⟨7⟩ 1, quote ⟨7⟩ 2].length, .ofNat [quote ⟨8⟩ 1].length, 0⟩ :
      Tally) = ⟨2, 1, 0⟩ := rfl
  have hround : [quote ⟨7⟩ 1, quote ⟨7⟩ 2].take
      ((2 : UInt64).toNat * ([quote ⟨7⟩ 1, quote ⟨7⟩ 2].length / (2 : UInt64).toNat)) =
        [quote ⟨7⟩ 1, quote ⟨7⟩ 2] := by decide
  obtain ⟨-, -, -, shown, hshown, -, hpublished⟩ := hrun operations
  rw [hlog, hown, hforeign, htally] at hshown
  rw [hlog, hown, hround] at hpublished
  exact ⟨hlog, shown, hshown, hpublished⟩

end Pipeline

end DepthFeed

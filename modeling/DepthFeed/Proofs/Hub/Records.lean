import DepthFeed.Consumer.Script
import DepthFeed.Proofs.Hub.Reading
import DepthFeed.Proofs.Hub.Told

/-!
# The records of a run

Batches and whole ingest loops dispatch the events that they read, and leave notices of their own at
their start and end. So what the notices tell of single dispatches, they tell of every run.

* `Hub.Deed`, `Hub.doAll`: single actions, batches and loops, one after the other.
* `Hub.Plays`: a batch or a loop dispatched some events, and has no more to say on any topic.
* `Hub.Unfolds`: deeds with each batch and loop replaced by the dispatches that it made.
* `Hub.Attests`: notices that agree with the counts of a hub and with its replies.
* `Hub.doAll_attested`: the notices of a run without a fault on a new hub.
-/

namespace DepthFeed

namespace Hub

open Ingest

/-! ## Deeds -/

/-- A ring that can be read, and what is in it. -/
structure Source where
  pipe : Pipe Event
  events : List Event
  offers : pipe.Offers events

/-- Ways to dispatch the events of a ring. -/
inductive Drive where
  | pump (limit : Nat)
  | run (stop : Bool) (rule : ShutdownRule)
  /-- A producer writes some events meanwhile, and closes its writer. -/
  | runFed (writer : Nat) (fed : List Event) (rule : ShutdownRule)

def Drive.fed : Drive → List Event
  | pump _ => []
  | run _ _ => []
  | runFed _ fed _ => fed

/-- What is done to a hub by those who use it. -/
inductive Deed (C : Type) where
  | act (action : Action C)
  | drive (clock : Nat → Int64) (source : Source) (way : Drive)

/-- What comes of a deed. -/
inductive Effect (C : Type) where
  | acted (reply : Reply C) (notices : List Notice)
  /-- A loop as it ended, with its summary if it came to one. -/
  | drove (last : Ingest C) (summary : Option (Except Fault Ingest.Summary))

namespace Effect

variable {C : Type}

def notices : Effect C → List Notice
  | acted _ notices => notices
  | drove last _ => last.notices

def isFault : Effect C → Bool
  | acted reply _ => reply.isFault
  | drove last _ => last.fault.isSome

/-- A loop that is over has a summary, and its last notice tells it. -/
def TellsSummary : Effect C → Prop
  | drove last (some concluded) =>
    ∃ summary, concluded = .ok summary ∧
      last.notices.getLast? = some (.loopStopped summary.dispatched summary.discarded)
  | _ => True

end Effect

variable {C : Type} [Consumer C]

/-- The hub after it dispatched events of a ring in some way. -/
def drive (mode : OverflowMode) (clock : Nat → Int64) (hub : Hub C) (source : Pipe Event) :
    Drive → Ingest C × Option (Except Fault Ingest.Summary)
  | .pump limit => (hub.dispatchUpTo mode clock source limit, none)
  | .run stop rule => hub.run mode clock source stop rule
  | .runFed writer fed rule =>
    let (last, summary) := hub.runFed mode clock source writer fed rule
    (last, some summary)

def doDeed (mode : OverflowMode) (hub : Hub C) : Deed C → Effect C × Hub C
  | .act action =>
    let (reply, next) := hub.act mode action
    (.acted reply (hub.told mode action), next)
  | .drive clock source way =>
    let (last, summary) := hub.drive mode clock source.pipe way
    (.drove last summary, last.hub)

def doAll (mode : OverflowMode) (hub : Hub C) (deeds : List (Deed C)) : List (Effect C) × Hub C :=
  runWith (doDeed mode) hub deeds

/-! ## Loops -/

variable {mode : OverflowMode} {clock : Nat → Int64} {hub : Hub C} {source : Source}
  {fed events : List Event} {s last : Ingest C}

/-- A loop on a hub that read some events and dispatched them, and nothing else. -/
structure Plays (mode : OverflowMode) (clock : Nat → Int64) (hub : Hub C) (source : Source)
    (fed events : List Event) (last : Ingest C) : Prop where
  hub_eq : last.hub = (hub.dispatchEach mode clock 0 events).2
  faultFree : FaultFree (hub.dispatchEach mode clock 0 events).1
  dispatched_eq : last.dispatched = events.length
  isPrefix : ∃ taken, taken.Sublist fed ∧ events <+: source.events ++ taken
  /-- The notices of the loop itself are on no topic. -/
  filter_notices (topic : Notice.Topic) : last.notices.filter (·.isOn topic) =
    ((hub.dispatchEach mode clock 0 events).1.flatMap Dispatched.notices).filter (·.isOn topic)

theorem Plays.of_reads (h : Reads mode clock fed s events last) (hhub : s.hub = hub)
    (hsource : s.source = source.pipe) (hdispatched : s.dispatched = 0)
    (hquiet : ∀ topic : Notice.Topic, s.notices.filter (·.isOn topic) = []) :
    Plays mode clock hub source fed events last := by
  subst hhub
  obtain ⟨hhub, hnotices, hcount, hfree, hoffers⟩ := h
  rw [hdispatched] at hhub hnotices hcount hfree
  refine ⟨hhub, hfree, hcount.trans (Nat.zero_add _), ?_, ?_⟩
  · obtain ⟨taken, rest, htaken, hread, -⟩ := hoffers (hsource ▸ source.offers)
    exact ⟨taken, htaken, rest, hread⟩
  · intro topic
    rw [hnotices, List.filter_append, hquiet, List.nil_append]

theorem Plays.close (h : Plays mode clock hub source fed events last) (left : Pipe Event)
    (discarded : Nat) :
    Plays mode clock hub source fed events
      { last with
        source := left
        notices := last.notices ++ closing last.dispatched discarded } where
  hub_eq := h.hub_eq
  faultFree := h.faultFree
  dispatched_eq := h.dispatched_eq
  isPrefix := h.isPrefix
  filter_notices topic := by
    have hquiet : (closing last.dispatched discarded).filter (·.isOn topic) = [] := by
      unfold closing
      split <;> cases topic <;> rfl
    rw [List.filter_append, hquiet, List.append_nil, h.filter_notices]

omit [Consumer C] in
theorem filter_beginRun (hub : Hub C) (source : Pipe Event) (stop : Bool)
    (topic : Notice.Topic) : (beginRun hub source stop).notices.filter (·.isOn topic) = [] := by
  cases topic <;> rfl

/-- A loop that reads its ring in some way and then shuts down. -/
theorem exists_plays_shutDown (stop : Bool) {rule : ShutdownRule}
    (hreads : s.fault = none →
      ∃ events, Reads mode clock fed (beginRun hub source.pipe stop) events s)
    (hfault : (s.shutDown mode clock rule).1.fault = none) :
    (∃ events, Plays mode clock hub source fed events (s.shutDown mode clock rule).1) ∧
      Effect.TellsSummary (.drove (s.shutDown mode clock rule).1
        (some (s.shutDown mode clock rule).2)) := by
  obtain ⟨hnone, more, last, left, discarded, hmore, hshut⟩ := s.exists_reads_shutDown rule hfault
  obtain ⟨events, hreads⟩ := hreads hnone
  have hall := hreads.trans hmore
  rw [List.append_nil] at hall
  rw [hshut]
  constructor
  · exact ⟨_, (Plays.of_reads hall rfl rfl rfl (filter_beginRun hub source.pipe stop)).close left
      discarded⟩
  · refine ⟨_, rfl, ?_⟩
    show List.getLast? (last.notices ++ closing last.dispatched discarded) = _
    rw [closing, ← List.append_assoc, List.getLast?_concat]

/-- What is dispatched in any of the ways, where no dispatch ends in a fault. -/
theorem exists_plays_drive (hub : Hub C) (source : Source) (way : Drive)
    (hfault : (hub.drive mode clock source.pipe way).1.fault = none) :
    (∃ events, Plays mode clock hub source way.fed events
        (hub.drive mode clock source.pipe way).1) ∧
      Effect.TellsSummary (.drove (hub.drive mode clock source.pipe way).1
        (hub.drive mode clock source.pipe way).2) := by
  cases way with
  | pump limit =>
    obtain ⟨events, hreads⟩ := exists_reads_flushAtMost _ limit hfault
    exact ⟨⟨events, .of_reads hreads rfl rfl rfl fun _ => rfl⟩, trivial⟩
  | run stop rule =>
    unfold drive run at hfault ⊢
    dsimp only at hfault ⊢
    split
    · rename_i hover
      rw [if_pos hover] at hfault
      exact exists_plays_shutDown stop (exists_reads_follow _) hfault
    · rename_i hgoes
      rw [if_neg hgoes] at hfault
      obtain ⟨events, hreads⟩ := exists_reads_follow _ hfault
      exact ⟨⟨events, .of_reads hreads rfl rfl rfl (filter_beginRun hub source.pipe stop)⟩, trivial⟩
  | runFed writer fed rule =>
    refine exists_plays_shutDown false (fun hnone => ?_) hfault
    generalize hbefore : (beginRun hub source.pipe false).feed mode clock writer fed = before
      at hnone ⊢
    have hclose : Reads mode clock [] before []
        (before.withSource (before.source.closeWriter writer).2) :=
      .of_same fun hoffers => offers_closeWriter hoffers writer
    obtain ⟨later, hlater⟩ := exists_reads_follow _ hnone
    have hclosed := fault_follow hnone
    subst hbefore
    obtain ⟨earlier, hearlier⟩ := exists_reads_feed _ writer fed hclosed
    have hall := hearlier.trans (hclose.trans hlater)
    rw [List.append_nil, List.append_nil] at hall
    exact ⟨_, hall⟩

/-! ## Loops as dispatches -/

/-- The dispatches of some events in turn where the clock was read `n` times before. -/
def dispatching (clock : Nat → Int64) (n : Nat) : List Event → List (Action C)
  | [] => []
  | e :: events => .operate (.dispatch (clock n) e) :: dispatching clock (n + 1) events

theorem actAll_dispatching (hub : Hub C) (n : Nat) (events : List Event) :
    (hub.actAll mode (dispatching clock n events)).2 =
        (hub.dispatchEach mode clock n events).2 ∧
      hub.toldAll mode (dispatching clock n events) =
        (hub.dispatchEach mode clock n events).1.flatMap Dispatched.notices := by
  induction events generalizing hub n with
  | nil => exact ⟨rfl, rfl⟩
  | cons e events ih =>
    obtain ⟨hlast, htold⟩ := ih (hub.dispatch mode (clock n) e).hub (n + 1)
    rw [dispatchEach_cons, List.flatMap_cons, ← htold]
    exact ⟨hlast, rfl⟩

theorem noFault_dispatching {hub : Hub C} {n : Nat} {events : List Event}
    (hfree : FaultFree (hub.dispatchEach mode clock n events).1) :
    NoFault (hub.actAll mode (dispatching clock n events)).1 := by
  induction events generalizing hub n with
  | nil => exact fun reply hmem => nomatch hmem
  | cons e events ih =>
    obtain ⟨⟨report, hreport⟩, hfree⟩ := List.forall_mem_cons.1 hfree
    refine List.forall_mem_cons.2 ⟨?_, ih hfree⟩
    simp only [hreport]
    rfl

/-- Deeds with each batch and each loop replaced by the dispatches of the events that it read. A
batch, and a loop that nobody writes to meanwhile, reads the first events of its ring. -/
inductive Unfolds (mode : OverflowMode) : Hub C → List (Deed C) → List (Action C) → Prop
  | nil {hub : Hub C} : Unfolds mode hub [] []
  | act {hub : Hub C} {action : Action C} {deeds : List (Deed C)} {actions : List (Action C)}
      (hrest : Unfolds mode (hub.act mode action).2 deeds actions) :
      Unfolds mode hub (.act action :: deeds) (action :: actions)
  | drive {hub : Hub C} {clock : Nat → Int64} {source : Source} {way : Drive}
      {deeds : List (Deed C)} {taken events : List Event} {actions : List (Action C)}
      (htaken : taken.Sublist way.fed) (hevents : events <+: source.events ++ taken)
      (hdispatched : (hub.drive mode clock source.pipe way).1.dispatched = events.length)
      (hhub : (hub.drive mode clock source.pipe way).1.hub =
        (hub.actAll mode (dispatching clock 0 events)).2)
      (hrest : Unfolds mode (hub.drive mode clock source.pipe way).1.hub deeds actions) :
      Unfolds mode hub (.drive clock source way :: deeds)
        (dispatching clock 0 events ++ actions)

theorem Unfolds.snd_actAll {deeds : List (Deed C)} {actions : List (Action C)}
    (h : hub.Unfolds mode deeds actions) :
    (hub.actAll mode actions).2 = (hub.doAll mode deeds).2 := by
  induction h with
  | nil => rfl
  | act hrest ih => exact ih
  | drive htaken hevents hdispatched hhub hrest ih =>
    rw [actAll, runWith_append]
    rw [hhub] at ih
    refine ih.trans ?_
    rw [← hhub]
    rfl

/-- Deeds without a fault unfold, and their notices are those of the dispatches on every topic. -/
theorem exists_unfolds {deeds : List (Deed C)} (hub : Hub C)
    (hnofault : ∀ effect ∈ (hub.doAll mode deeds).1, effect.isFault = false) :
    ∃ actions, hub.Unfolds mode deeds actions ∧ NoFault (hub.actAll mode actions).1 ∧
      (∀ topic : Notice.Topic,
        ((hub.doAll mode deeds).1.flatMap Effect.notices).filter (·.isOn topic) =
          (hub.toldAll mode actions).filter (·.isOn topic)) ∧
      ∀ effect ∈ (hub.doAll mode deeds).1, effect.TellsSummary := by
  induction deeds generalizing hub with
  | nil =>
    refine ⟨[], .nil, ?_, fun _ => rfl, ?_⟩
    · exact List.forall_mem_nil _
    · exact List.forall_mem_nil _
  | cons deed deeds ih =>
    obtain ⟨hfirst, hlater⟩ := List.forall_mem_cons.1 hnofault
    obtain ⟨actions, hunfolds, hfree, hnotices, hsummaries⟩ := ih (hub.doDeed mode deed).2 hlater
    cases deed with
    | act action =>
      refine ⟨action :: actions, .act hunfolds, List.forall_mem_cons.2 ⟨hfirst, hfree⟩, ?_,
        List.forall_mem_cons.2 ⟨trivial, hsummaries⟩⟩
      intro topic
      have hsplit : ((hub.doAll mode (.act action :: deeds)).1.flatMap Effect.notices) =
          hub.told mode action ++
            ((hub.act mode action).2.doAll mode deeds).1.flatMap Effect.notices := rfl
      rw [hsplit, toldAll, List.filter_append, List.filter_append]
      exact congrArg _ (hnotices topic)
    | drive clock source way =>
      have hfault : (hub.drive mode clock source.pipe way).1.fault = none :=
        Option.isNone_iff_eq_none.1 (Option.isSome_eq_false_iff.1 hfirst)
      obtain ⟨⟨events, hplays⟩, hsummary⟩ := exists_plays_drive hub source way hfault
      obtain ⟨taken, htaken, hevents⟩ := hplays.isPrefix
      obtain ⟨hlast, htold⟩ : _ ∧ hub.toldAll mode (dispatching clock 0 events) = _ :=
        actAll_dispatching hub 0 events
      have hhub : (hub.drive mode clock source.pipe way).1.hub =
          (hub.actAll mode (dispatching clock 0 events)).2 := hplays.hub_eq.trans hlast.symm
      have hnext : (hub.doDeed mode (.drive clock source way)).2 =
          (hub.actAll mode (dispatching clock 0 events)).2 := hhub
      refine ⟨_, .drive htaken hevents hplays.dispatched_eq hhub hunfolds, ?_, ?_,
        List.forall_mem_cons.2 ⟨hsummary, hsummaries⟩⟩
      · rw [hnext] at hfree
        rw [actAll, runWith_append]
        exact List.forall_mem_append.2 ⟨noFault_dispatching hplays.faultFree, hfree⟩
      · intro topic
        have hsplit : ((hub.doAll mode (.drive clock source way :: deeds)).1.flatMap
            Effect.notices) = (hub.drive mode clock source.pipe way).1.notices ++
              ((hub.doDeed mode (.drive clock source way)).2.doAll mode deeds).1.flatMap
                Effect.notices := rfl
        rw [hsplit, toldAll_append, List.filter_append, List.filter_append,
          hplays.filter_notices, htold, hnotices, hnext]

/-! ## Runs -/

/-- Notices that agree with the counts of a hub and with its replies. A count is a word, so the tallies
of the consumers add up to their notices exactly as long as few enough replies were given. -/
structure Attests (notices : List Notice) (hub : Hub C) (replies : List (Reply C)) : Prop where
  gaps_eq : notices.filter (·.isOn .gap) = (replies.filterMap Reply.gap?).map .gapDetected
  droppedAlerts_eq : hub.droppedAlerts = .ofNat (notices.countP (·.isOn .lostAlert))
  crashes : AddUp ((everyone replies hub).map fun s => s.tally.crashes)
    (notices.countP (·.isOn .crash)) replies.length
  rejections : AddUp ((everyone replies hub).map fun s => s.tally.failures - s.tally.crashes)
    (notices.countP (·.isOn .rejection)) replies.length
  streams_perm : (notices.filter (·.isOn .newStream)).Perm
    (hub.stats.toList.map fun row => .streamTracked row.1)
  departures_eq : notices.filter (·.isOn .departure) =
    (replies.filterMap Reply.ended?).map departure

/-- What is recorded is attested, also by notices that differ on no topic. -/
theorem Recorded.attests {notices notices' : List Notice} {replies : List (Reply C)}
    (h : hub.Recorded notices replies)
    (hsame : ∀ topic : Notice.Topic,
      notices'.filter (·.isOn topic) = notices.filter (·.isOn topic)) :
    Attests notices' hub replies := by
  have hcount : ∀ topic : Notice.Topic,
      notices'.countP (·.isOn topic) = notices.countP (·.isOn topic) := by
    intro topic
    rw [List.countP_eq_length_filter, List.countP_eq_length_filter, hsame]
  constructor
  case gaps_eq => rw [hsame, h.gaps_eq]
  case droppedAlerts_eq => rw [hcount, h.droppedAlerts_eq]
  case crashes =>
    rw [hcount]
    exact h.crashes.addUp
  case rejections =>
    rw [hcount]
    exact h.rejections.addUp
  case streams_perm =>
    obtain ⟨streams, hnodup, hmem, heq⟩ := h.streams
    have hkeys : hub.stats.toList.map Prod.fst = hub.stats.streams.keys :=
      Std.TreeMap.map_fst_toList_eq_keys
    have hperm : streams.Perm (hub.stats.toList.map Prod.fst) := by
      rw [hkeys]
      refine (List.perm_ext_iff_of_nodup hnodup Std.TreeMap.nodup_keys).2 fun stream => ?_
      rw [hmem, Std.TreeMap.mem_keys, Std.TreeMap.mem_iff_isSome_getElem?]
      rfl
    have hnotices := hperm.map Notice.streamTracked
    rwa [List.map_map, ← heq, ← hsame] at hnotices
  case departures_eq => rw [hsame, h.departures_eq]

variable [Consumer.Discreet C]

/-- After a run without a fault on a new hub, its notices agree with the counts and with the replies:
each gap is noted once and as it was reported, in order; so is each consumer that leaves, with its
last counts; as many dropped alerts, breakdowns and rejections are noted as are counted; each stream
is noted once; and each loop ends with the notice of its summary. -/
theorem doAll_attested {capacity : Nat} {notices : List Notice}
    (hcreate : create capacity = .ok (hub, notices)) {deeds : List (Deed C)}
    (hnofault : ∀ effect ∈ (hub.doAll mode deeds).1, effect.isFault = false) :
    (∃ actions, hub.Unfolds mode deeds actions ∧
      (hub.actAll mode actions).2 = (hub.doAll mode deeds).2 ∧
      Attests (notices ++ (hub.doAll mode deeds).1.flatMap Effect.notices)
        (hub.doAll mode deeds).2 (hub.actAll mode actions).1) ∧
      ∀ effect ∈ (hub.doAll mode deeds).1, effect.TellsSummary := by
  obtain ⟨actions, hunfolds, hfree, hnotices, hsummaries⟩ := exists_unfolds hub hnofault
  have hrecorded := recorded_actAll hcreate actions
  rw [← actAll_of_noFault hfree, ← toldAll_of_noFault hfree, hunfolds.snd_actAll] at hrecorded
  refine ⟨⟨actions, hunfolds, hunfolds.snd_actAll, hrecorded.attests fun topic => ?_⟩, hsummaries⟩
  rw [List.filter_append, List.filter_append, hnotices]

/-- A stream that somebody asks for first, a consumer that fails in both ways next to one that leaves
in the end, and a loop next to a producer. There is room for one of two alerts. -/
theorem doAll_attested_fed :
    ∃ (hub : Hub ScriptedConsumer) (notices : List Notice) (source : Source),
      create 1 = .ok (hub, notices) ∧
      let stream : StreamId := ⟨⟨1⟩, ⟨7⟩⟩
      let quote (sequence : Int64) : Event :=
        ⟨sequence, 0, .buy, ⟨100⟩, ⟨1⟩, .update, ⟨7⟩, ⟨1⟩, none⟩
      let steady : ScriptedConsumer := ⟨"steady", .accept, [], none, []⟩
      let shaky : ScriptedConsumer := ⟨"shaky", .accept, [(4, .crash), (8, .reject)], none, []⟩
      let deeds : List (Deed ScriptedConsumer) :=
        [.act (.track stream), .act (.operate (.subscribe steady .all)),
          .act (.operate (.subscribe shaky .all)), .act (.operate (.dispatch 0 (quote 1))),
          .drive (fun _ => 0) source (.runFed 0 [quote 8] .drain),
          .act (.operate (.unsubscribe (idAfter 0)))]
      let told := notices ++ (hub.doAll .trapping deeds).1.flatMap Effect.notices
      let final := (hub.doAll .trapping deeds).2
      source.events = [quote 4] ∧
        (∀ effect ∈ (hub.doAll .trapping deeds).1, effect.isFault = false) ∧
        ((∃ actions, hub.Unfolds .trapping deeds actions ∧
          (hub.actAll .trapping actions).2 = final ∧
          Attests told final (hub.actAll .trapping actions).1) ∧
          ∀ effect ∈ (hub.doAll .trapping deeds).1, effect.TellsSummary) ∧
        told.filter (·.isOn .gap) = [.gapDetected ⟨stream, 2, 4⟩, .gapDetected ⟨stream, 5, 8⟩] ∧
        told.filter (·.isOn .departure) = [.consumerLeft "steady" ⟨0⟩ 3 0] ∧
        final.droppedAlerts = 1 := by
  let waiting : Event := ⟨4, 0, .buy, ⟨100⟩, ⟨1⟩, .update, ⟨7⟩, ⟨1⟩, none⟩
  let source : Source := {
    pipe := ⟨(Ring.push ⟨Array.replicate 4 none, 0, 0, 0, 0⟩ waiting).2, .single, [true], true⟩
    events := [waiting]
    offers := by
      have hcapacity : (4 : UInt64).toNat.isPowerOfTwo := ⟨2, rfl⟩
      obtain ⟨ring, hring, hempty, -⟩ := @Ring.holds_ofCapacity Event 4 hcapacity
      obtain rfl := Except.ok.inj (hring.symm.trans (if_pos hcapacity))
      exact ⟨rfl, (hempty.push waiting).2⟩ }
  have hcreate : create 1 = .ok ((_ : Hub ScriptedConsumer), _) := rfl
  refine ⟨_, _, source, hcreate, ?_⟩
  intro stream quote steady shaky deeds told final
  refine ⟨rfl, ?nofault, doAll_attested hcreate ?nofault, ?gaps, ?departures, ?dropped⟩
  case nofault => decide +kernel
  case gaps => decide +kernel
  case departures => decide +kernel
  case dropped => decide +kernel

end Hub

end DepthFeed

import DepthFeed.Consumer.Script
import DepthFeed.Proofs.Hub.Loop

/-!
# Every event of a ring is accounted for

A whole ingest loop, and bounded batches, on a ring that nobody writes to any longer. A ring in use
always holds some list of events (`Pipe.run_follows`).

* `Hub.run_concluded`: a loop that ends dispatches or discards each of the events.
* `Hub.dispatchUpTo_add`: two batches one after the other are one batch.
-/

namespace DepthFeed

/-- How many of `total` events a loop dispatches that ends after `k` of them. -/
def ShutdownRule.reach (rule : ShutdownRule) (k total : Nat) : Nat :=
  match rule with
  | .drain => total
  | .discard => k

namespace Ingest

variable {C : Type}

theorem conclude_of_fault_none {s : Ingest C} (hfault : s.fault = none) (discarded : Nat) :
    (s.conclude discarded).2 = .ok ⟨s.dispatched, discarded⟩ ∧
      (s.conclude discarded).1.hub = s.hub ∧ (s.conclude discarded).1.source = s.source := by
  simp [conclude, hfault]

variable [Consumer C] {mode : OverflowMode} {clock : Nat → Int64}

theorem FaultFree.take {hub : Hub C} {n k m : Nat} {events : List Event}
    (h : FaultFree (hub.dispatchEach mode clock n (events.take m)).1) (hle : k ≤ m) :
    FaultFree (hub.dispatchEach mode clock n (events.take k)).1 := by
  intro out hmem
  rw [← Nat.min_eq_left hle, ← List.take_take, Hub.dispatchEach_take] at hmem
  exact h out (List.mem_of_mem_take hmem)

/-- A loop that has followed its ring to the end of what it may read was stopped, or is through with
all events. -/
theorem EndsAfter.stop_or_through {writersGone : Bool} {s s' : Ingest C} {events : List Event}
    {k : Nat}
    (hend : EndsAfter writersGone (s.hub.dispatchEach mode clock s.dispatched events).1 s.stop k)
    (h : Advanced mode clock s events k s') :
    s'.stop = true ∨ writersGone = true ∧ k = events.length := by
  have hstop := h.stop_eq
  rw [Hub.dispatchEach_take] at hstop
  rw [hstop]
  have htotal := Hub.length_dispatchEach mode clock s.hub s.dispatched events
  generalize (s.hub.dispatchEach mode clock s.dispatched events).1 = outs at hend htotal ⊢
  generalize s.stop = raised at hend ⊢
  cases hend with
  | atOnce => exact Or.inl rfl
  | @raised earlier later out houts hearlier hout =>
    have hlength : (earlier ++ [out]).length = earlier.length + 1 := List.length_append
    have htake : outs.take (earlier.length + 1) = earlier ++ [out] := by
      rw [houts, List.append_cons, ← hlength, List.take_left]
    rw [htake]
    simp [hout]
  | abandoned houts hgone => exact Or.inr ⟨hgone, htotal⟩

theorem shutDown_of_fault_none {s t : Ingest C} (rule : ShutdownRule)
    (ht : (if s.stop then s else s.flush mode clock) = t) (hfault : t.fault = none) :
    s.shutDown mode clock rule =
      match rule with
      | .drain => (t.flush mode clock).conclude 0
      | .discard => (t.withSource t.source.discard.2).conclude t.source.discard.1 := by
  cases rule <;> simp only [shutDown, ht, hfault]

/-- A loop that got through some of its events and then flushes its ring gets through all of them. -/
theorem Advanced.thenFlush {s t : Ingest C} {events : List Event} {k : Nat}
    (h : Advanced mode clock s events k t) (hle : k ≤ events.length)
    (hfree : FaultFree (s.hub.dispatchEach mode clock s.dispatched events).1) :
    Advanced mode clock s events events.length (t.flush mode clock) := by
  have hrest : (events.drop k).length = events.length - k := List.length_drop
  have htotal : k + (events.drop k).length = events.length := by omega
  rw [← htotal]
  refine h.trans hle (.flush h.holds h.fault_eq ?_)
  intro out hmem
  have hsplit := h.dispatchEach_eq hle (events.drop k)
  rw [List.take_append_drop] at hsplit
  refine hfree out ?_
  rw [hsplit]
  exact List.mem_append_right _ hmem

/-- A loop that is at its end and shuts down accounts for all events of its ring. -/
theorem Advanced.shutDown {s s' : Ingest C} {events : List Event} {k : Nat} {rule : ShutdownRule}
    (h : Advanced mode clock s events k s') (hle : k ≤ events.length)
    (hended : s'.stop = true ∨ s'.source.writersGone = true ∧ k = events.length)
    (hfree : FaultFree (s.hub.dispatchEach mode clock s.dispatched
      (events.take (rule.reach k events.length))).1) :
    (s'.shutDown mode clock rule).2 =
        .ok ⟨s.dispatched + rule.reach k events.length,
          events.length - rule.reach k events.length⟩ ∧
      (s'.shutDown mode clock rule).1.hub =
        (s.hub.dispatchEach mode clock s.dispatched
          (events.take (rule.reach k events.length))).2 ∧
      (s'.shutDown mode clock rule).1.source.ring.Holds [] := by
  -- Where the writers are gone, nothing is left to flush.
  have hflushed : Advanced mode clock s events k
      (if s'.stop then s' else s'.flush mode clock) := by
    rcases hended with hstop | ⟨-, hall⟩
    · rwa [if_pos hstop]
    · have hnone : events.drop k = [] := by rw [hall, List.drop_length]
      have hholds : s'.source.ring.Holds [] := hnone ▸ h.holds
      split
      · exact h
      · refine h.trans (j := 0) hle ?_
        rw [hnone]
        exact .flush hholds h.fault_eq fun out hmem => nomatch hmem
  generalize ht : (if s'.stop then s' else s'.flush mode clock) = t at hflushed
  rw [shutDown_of_fault_none rule ht hflushed.fault_eq]
  cases rule with
  | drain =>
    rw [ShutdownRule.reach, List.take_length] at hfree
    have hlast : Advanced mode clock s events events.length (t.flush mode clock) :=
      hflushed.thenFlush hle hfree
    obtain ⟨hsummary, hhub, hsource⟩ := conclude_of_fault_none hlast.fault_eq 0
    refine ⟨?_, ?_, ?_⟩
    · rw [hsummary, hlast.dispatched_eq]
      simp [ShutdownRule.reach]
    · exact hhub.trans hlast.hub_eq
    · rw [hsource, ← List.drop_length (l := events)]
      exact hlast.holds
  | discard =>
    obtain ⟨hitems, hempty⟩ := hflushed.holds.drain
    have hdiscard : t.source.discard.1 = events.length - k :=
      (congrArg List.length hitems).trans List.length_drop
    have hfault : (t.withSource t.source.discard.2).fault = none := hflushed.fault_eq
    obtain ⟨hsummary, hhub, hsource⟩ := conclude_of_fault_none hfault t.source.discard.1
    refine ⟨?_, ?_, ?_⟩
    · have hdispatched : (t.withSource t.source.discard.2).dispatched = s.dispatched + k :=
        hflushed.dispatched_eq
      rw [hsummary, hdiscard, hdispatched]
      rfl
    · exact hhub.trans hflushed.hub_eq
    · rw [hsource]
      exact hempty

/-! ## Batches -/

/-- A loop and then another one that goes on where it ended, as one. -/
def andThen (s t : Ingest C) : Ingest C :=
  { t with
    stop := s.stop || t.stop
    dispatched := s.dispatched + t.dispatched
    notices := s.notices ++ t.notices }

theorem dispatch_andThen (s t : Ingest C) (e : Event) :
    (s.andThen t).dispatch mode clock e =
      s.andThen (t.dispatch mode (fun i => clock (s.dispatched + i)) e) := by
  have hsame : (s.andThen t).hub.dispatch mode (clock (s.andThen t).dispatched) e =
      t.hub.dispatch mode (clock (s.dispatched + t.dispatched)) e := rfl
  simp only [dispatch, hsame]
  cases (t.hub.dispatch mode (clock (s.dispatched + t.dispatched)) e).report <;>
    simp [andThen, Bool.or_assoc, Nat.add_assoc]

theorem flushAtMost_andThen (s t : Ingest C) (n : Nat) :
    (s.andThen t).flushAtMost mode clock n =
      s.andThen (t.flushAtMost mode (fun i => clock (s.dispatched + i)) n) := by
  induction n generalizing t with
  | zero => rfl
  | succ n ih =>
    have hfault : (s.andThen t).fault = t.fault := rfl
    have hnext : (s.andThen t).next = (t.next.1, s.andThen t.next.2) := rfl
    rw [flushAtMost, flushAtMost, hfault, hnext]
    cases t.fault.isSome with
    | true => rfl
    | false =>
      cases hread : t.next with
      | mk answer t' =>
        cases answer with
        | none => rfl
        | some e =>
          rw [if_neg Bool.false_ne_true, if_neg Bool.false_ne_true]
          dsimp only
          rw [dispatch_andThen, ih]

omit [Consumer C] in
/-- Once it was refused, a loop stays where it is. -/
theorem next_next_nil {s s' : Ingest C} (hholds : s.source.ring.Holds [])
    (hnext : s.next = (none, s')) : s'.next = (none, s') := by
  obtain rfl : s.withSource s.source.read.2 = s' := congrArg Prod.snd hnext
  have hagain : s.source.read.2.read = (none, s.source.read.2) := by
    rw [Pipe.read, Pipe.read, Pipe.onRing_eq, Pipe.onRing_eq, hholds.pop_pop_nil]
  have hread : (s.withSource s.source.read.2).source.read = s.source.read.2.read := rfl
  rw [next_eq, hread, hagain]
  rfl

theorem flushAtMost_of_refused {s : Ingest C} (hnext : s.next = (none, s)) (n : Nat) :
    s.flushAtMost mode clock n = s := by
  cases n with
  | zero => rfl
  | succ n =>
    rw [flushAtMost, hnext]
    exact ite_self s

theorem flushAtMost_of_fault {s : Ingest C} {fault : Fault} (hfault : s.fault = some fault)
    (n : Nat) : s.flushAtMost mode clock n = s := by
  cases n with
  | zero => rfl
  | succ n =>
    rw [flushAtMost, hfault]
    rfl

theorem flushAtMost_add {s : Ingest C} {events : List Event}
    (hholds : s.source.ring.Holds events) (a b : Nat) :
    s.flushAtMost mode clock (a + b) =
      (s.flushAtMost mode clock a).flushAtMost mode clock b := by
  induction a generalizing s events with
  | zero =>
    rw [Nat.zero_add]
    rfl
  | succ a ih =>
    have hcount : a + 1 + b = a + b + 1 := by omega
    cases hfault : s.fault with
    | some fault => simp only [flushAtMost_of_fault hfault]
    | none =>
      rw [hcount, flushAtMost, flushAtMost, hfault, Option.isSome_none,
        if_neg Bool.false_ne_true, if_neg Bool.false_ne_true]
      cases events with
      | nil =>
        obtain ⟨source, hnext, -, -⟩ := next_nil hholds
        rw [hnext]
        exact (flushAtMost_of_refused (next_next_nil hholds hnext) b).symm
      | cons e events =>
        obtain ⟨source, hnext, hrest, -⟩ := next_cons hholds
        rw [hnext]
        dsimp only
        have hholds' : ((s.withSource source).dispatch mode clock e).source.ring.Holds events := by
          rw [source_dispatch]
          exact hrest
        exact ih hholds'

end Ingest

namespace Hub

open Ingest

variable {C : Type} [Consumer C] {mode : OverflowMode} {clock : Nat → Int64}

/-- A loop that is over and dispatched the first `n` events of its ring, one after the other. -/
structure Concluded (mode : OverflowMode) (clock : Nat → Int64) (hub : Hub C)
    (events : List Event) (n : Nat)
    (result : Ingest C × Option (Except Fault Ingest.Summary)) : Prop where
  summary : ∃ summary, result.2 = some (.ok summary) ∧ summary.dispatched = n ∧
    summary.dispatched + summary.discarded = events.length
  hub_eq : result.1.hub = (hub.dispatchEach mode clock 0 (events.take n)).2
  /-- The clock makes no difference beyond latencies. -/
  sameButLatencies (clock' : Nat → Int64) :
    result.1.hub.SameButLatencies (hub.dispatchEach mode clock' 0 (events.take n)).2
  holds : result.1.source.ring.Holds []

theorem run_concluded {source : Pipe Event} {events : List Event}
    (hholds : source.ring.Holds events) (hub : Hub C) {stop : Bool} {rule : ShutdownRule} {k : Nat}
    (hend : EndsAfter source.writersGone (hub.dispatchEach mode clock 0 events).1 stop k)
    (hfree : FaultFree
      (hub.dispatchEach mode clock 0 (events.take (rule.reach k events.length))).1) :
    Concluded mode clock hub events (rule.reach k events.length)
      (hub.run mode clock source stop rule) := by
  have hle : k ≤ events.length := by
    have hk := hend.le
    rwa [length_dispatchEach] at hk
  have hreach : k ≤ rule.reach k events.length := by
    cases rule with
    | drain => exact hle
    | discard => exact le_rfl
  have hfollowed : Advanced mode clock (beginRun hub source stop) events k
      ((beginRun hub source stop).follow mode clock) :=
    hend.follow hholds rfl (hfree.take hreach)
  have hgone : ((beginRun hub source stop).follow mode clock).source.writersGone =
      source.writersGone := by
    rw [Pipe.writersGone, hfollowed.writers_eq]
    rfl
  have hended := EndsAfter.stop_or_through (s := beginRun hub source stop) hend hfollowed
  rw [← hgone] at hended
  have hover : ((beginRun hub source stop).follow mode clock).isOver = true := by
    rcases hended with hstop | ⟨hgone, -⟩
    · simp [isOver, hstop]
    · simp [isOver, hgone]
  obtain ⟨hsummary, hhub, hempty⟩ := hfollowed.shutDown hle hended hfree
  have hrun : hub.run mode clock source stop rule =
      ((((beginRun hub source stop).follow mode clock).shutDown mode clock rule).1,
        some (((beginRun hub source stop).follow mode clock).shutDown mode clock rule).2) := by
    rw [run, if_pos hover]
  rw [hrun]
  refine {
    summary := ⟨_, congrArg some hsummary, ?_, ?_⟩
    hub_eq := hhub
    sameButLatencies := fun clock' => ?_
    holds := hempty }
  · exact Nat.zero_add _
  · have hzero : (beginRun hub source stop).dispatched + rule.reach k events.length =
        rule.reach k events.length := Nat.zero_add _
    have htotal : rule.reach k events.length ≤ events.length := by
      cases rule with
      | drain => exact le_rfl
      | discard => exact hle
    rw [hzero]
    exact Nat.add_sub_cancel' htotal
  · rw [hhub]
    exact ((SameButLatencies.refl hub).dispatchEach mode clock clock' 0 0 _).1

/-- Two batches one after the other are one batch. -/
theorem dispatchUpTo_add {source : Pipe Event} {events : List Event}
    (hholds : source.ring.Holds events) (hub : Hub C) {a : Nat}
    (hfault : (hub.dispatchUpTo mode clock source a).fault = none) (b : Nat) :
    hub.dispatchUpTo mode clock source (a + b) =
      (hub.dispatchUpTo mode clock source a).andThen
        ((hub.dispatchUpTo mode clock source a).hub.dispatchUpTo mode
          (fun i => clock ((hub.dispatchUpTo mode clock source a).dispatched + i))
          (hub.dispatchUpTo mode clock source a).source b) := by
  have hsplit : hub.dispatchUpTo mode clock source (a + b) =
      (hub.dispatchUpTo mode clock source a).flushAtMost mode clock b :=
    flushAtMost_add (s := start hub source false) hholds a b
  rw [hsplit]
  generalize hub.dispatchUpTo mode clock source a = first at hfault ⊢
  have hrestart : first.andThen (start first.hub first.source false) = first := by
    cases first
    subst hfault
    simp [andThen, start]
  rw [dispatchUpTo, ← flushAtMost_andThen, hrestart]

/-- On a ring that nobody writes to any longer, a loop that ends at all ends with each event
dispatched or discarded, and a batch dispatches as many events as it may. -/
theorem run_accounts {source : Pipe Event} {events : List Event}
    (hholds : source.ring.Holds events) (mode : OverflowMode) (clock : Nat → Int64) (hub : Hub C) :
    (∀ stop rule k,
      EndsAfter source.writersGone (hub.dispatchEach mode clock 0 events).1 stop k →
      FaultFree (hub.dispatchEach mode clock 0 (events.take (rule.reach k events.length))).1 →
      Concluded mode clock hub events (rule.reach k events.length)
          (hub.run mode clock source stop rule) ∧
        ((stop = false ∧ ∀ out ∈ (hub.dispatchEach mode clock 0 events).1, out.raisesStop = false) →
          rule.reach k events.length = events.length)) ∧
    (∀ a, FaultFree (hub.dispatchEach mode clock 0 (events.take a)).1 →
      (hub.dispatchUpTo mode clock source a).dispatched = min a events.length ∧
      (hub.dispatchUpTo mode clock source a).hub =
        (hub.dispatchEach mode clock 0 (events.take a)).2 ∧
      (hub.dispatchUpTo mode clock source a).source.ring.Holds (events.drop a) ∧
      ∀ b, hub.dispatchUpTo mode clock source (a + b) =
        (hub.dispatchUpTo mode clock source a).andThen
          ((hub.dispatchUpTo mode clock source a).hub.dispatchUpTo mode
            (fun i => clock ((hub.dispatchUpTo mode clock source a).dispatched + i))
            (hub.dispatchUpTo mode clock source a).source b)) := by
  constructor
  · intro stop rule k hend hfree
    refine ⟨run_concluded hholds hub hend hfree, ?_⟩
    rintro ⟨rfl, hquiet⟩
    have hk : k = events.length := by
      rw [← length_dispatchEach mode clock hub 0 events]
      cases hend with
      | raised houts hearlier hout =>
        have hmem : _ ∈ (hub.dispatchEach mode clock 0 events).1 :=
          houts ▸ List.mem_append_right _ List.mem_cons_self
        rw [hquiet _ hmem] at hout
        cases hout
      | abandoned houts hgone => rfl
    cases rule with
    | drain => rfl
    | discard => exact hk
  · intro a hfree
    have hbatch : Advanced mode clock (start hub source false) events (min a events.length)
        (hub.dispatchUpTo mode clock source a) := .flushAtMost hholds rfl a hfree
    refine ⟨hbatch.dispatched_eq.trans (Nat.zero_add _), ?_, ?_, ?_⟩
    · rw [List.take_eq_take_min]
      exact hbatch.hub_eq
    · rw [List.drop_eq_drop_min]
      exact hbatch.holds
    · exact dispatchUpTo_add hholds hub hbatch.fault_eq

/-- A consumer stops the loop on the second of three events, and the third one is discarded. -/
theorem run_accounts_stopped :
    ∃ (source : Pipe Event) (hub : Hub ScriptedConsumer),
      let quote (sequence : Int64) : Event :=
        ⟨sequence, 0, .buy, ⟨100⟩, ⟨1⟩, .update, ⟨7⟩, ⟨1⟩, none⟩
      source.ring.Holds [quote 1, quote 2, quote 3] ∧
      (∃ summary, (hub.run .silent (fun _ => 0) source false .discard).2 = some (.ok summary) ∧
        summary.dispatched = 2 ∧ summary.dispatched + summary.discarded = 3) ∧
      (hub.run .silent (fun _ => 0) source false .discard).1.source.ring.Holds [] ∧
      (hub.dispatchUpTo .silent (fun _ => 0) source 2).dispatched = 2 ∧
      (hub.dispatchUpTo .silent (fun _ => 0) source 2).source.ring.Holds [quote 3] := by
  let quote (sequence : Int64) : Event := ⟨sequence, 0, .buy, ⟨100⟩, ⟨1⟩, .update, ⟨7⟩, ⟨1⟩, none⟩
  let hub : Hub ScriptedConsumer := {
    subscriptions := [⟨⟨0⟩, .all, ⟨"stopper", .accept, [], some 2, []⟩, ⟨0, 0, 0⟩⟩]
    nextId := 1
    monitor := .empty
    stats := .empty
    alerts := .bounded 1
    droppedAlerts := 0
    dispatched := 0 }
  obtain ⟨ring, -, hholds⟩ := @Ring.exists_holds Event 4 ⟨2, rfl⟩ [quote 1, quote 2, quote 3]
    (by decide)
  let source : Pipe Event := ⟨ring, .single, [true], true⟩
  have hend : EndsAfter source.writersGone
      (hub.dispatchEach .silent (fun _ => 0) 0 [quote 1, quote 2, quote 3]).1 false 2 :=
    .raised rfl (List.forall_mem_singleton.2 rfl) rfl
  have hsource : source.ring.Holds [quote 1, quote 2, quote 3] := hholds
  have haccounts := run_accounts hsource .silent (fun _ => 0) hub
  obtain ⟨hconcluded, -⟩ := haccounts.1 false .discard 2 hend (faultFree_silent _ _ _)
  obtain ⟨hcount, -, hrest, -⟩ := haccounts.2 2 (faultFree_silent _ _ _)
  exact ⟨source, hub, hsource, hconcluded.summary, hconcluded.holds, hcount, hrest⟩

end Hub

end DepthFeed

import DepthFeed.Hub.Ingest
import DepthFeed.Proofs.Hub.Serial
import DepthFeed.Proofs.Ring.Contents

/-!
# What the ingest loop reads

The parts of the ingest loop on a ring that holds some events, with nobody writing to it.

* `Ingest.Advanced`: a loop after it dispatched the first `k` of the events, one after the other.
* `Ingest.EndsAfter`: the moment at which a loop is told to stop, or finds its ring abandoned.
* `Ingest.EndsAfter.follow`, `Ingest.Advanced.flush`, `Ingest.Advanced.flushAtMost`: how far each
  part of the loop gets.
-/

namespace DepthFeed

variable {C : Type}

namespace Ingest

/-- Dispatches that all came to their end. -/
def FaultFree (outs : List (Dispatched C)) : Prop := ∀ out ∈ outs, ∃ report, out.report = .ok report

/-- After how many of its dispatches a loop ends, from a stop flag that is raised or not. -/
inductive EndsAfter (writersGone : Bool) (outs : List (Dispatched C)) : Bool → Nat → Prop
  /-- The flag is raised before the loop starts. -/
  | atOnce : EndsAfter writersGone outs true 0
  /-- A consumer is the first to raise the flag. -/
  | raised {earlier later : List (Dispatched C)} {out : Dispatched C}
      (houts : outs = earlier ++ out :: later)
      (hearlier : ∀ other ∈ earlier, other.raisesStop = false) (hout : out.raisesStop = true) :
      EndsAfter writersGone outs false (earlier.length + 1)
  /-- Nobody raises the flag, but the writers are gone. -/
  | abandoned (houts : ∀ out ∈ outs, out.raisesStop = false) (hgone : writersGone = true) :
      EndsAfter writersGone outs false outs.length

theorem EndsAfter.cons {writersGone : Bool} {out : Dispatched C} {outs : List (Dispatched C)}
    {k : Nat} (h : EndsAfter writersGone (out :: outs) false k) :
    ∃ k', k = k' + 1 ∧ EndsAfter writersGone outs out.raisesStop k' := by
  cases h with
  | @raised earlier later first houts hearlier hfirst =>
    cases earlier with
    | nil =>
      obtain ⟨rfl, rfl⟩ := List.cons.inj houts
      exact ⟨0, rfl, hfirst ▸ .atOnce⟩
    | cons other earlier =>
      obtain ⟨rfl, rfl⟩ := List.cons.inj houts
      obtain ⟨hout, hearlier⟩ := List.forall_mem_cons.1 hearlier
      exact ⟨earlier.length + 1, rfl, hout ▸ .raised rfl hearlier hfirst⟩
  | abandoned houts hgone =>
    obtain ⟨hout, houts⟩ := List.forall_mem_cons.1 houts
    exact ⟨outs.length, rfl, hout ▸ .abandoned houts hgone⟩

theorem EndsAfter.le {writersGone : Bool} {outs : List (Dispatched C)} {stop : Bool} {k : Nat}
    (h : EndsAfter writersGone outs stop k) : k ≤ outs.length := by
  cases h with
  | atOnce => exact Nat.zero_le _
  | raised houts _ _ =>
    rw [houts, List.length_append, List.length_cons]
    omega
  | abandoned _ _ => exact le_rfl

/-! ## One read -/

theorem next_nil {s : Ingest C} (h : s.source.ring.Holds []) :
    ∃ source, s.next = (none, s.withSource source) ∧ source.ring.Holds [] ∧
      source.writers = s.source.writers := by
  obtain ⟨r, hpop, hr⟩ := h.pop_nil
  refine ⟨{ s.source with ring := r }, ?_, hr, rfl⟩
  rw [next_eq, Pipe.read, Pipe.onRing_eq, hpop]

theorem next_cons {s : Ingest C} {e : Event} {events : List Event}
    (h : s.source.ring.Holds (e :: events)) :
    ∃ source, s.next = (some e, s.withSource source) ∧ source.ring.Holds events ∧
      source.writers = s.source.writers := by
  obtain ⟨r, hpop, hr⟩ := h.pop_cons
  refine ⟨{ s.source with ring := r }, ?_, hr, rfl⟩
  rw [next_eq, Pipe.read, Pipe.onRing_eq, hpop]

variable [Consumer C] {mode : OverflowMode} {clock : Nat → Int64}

theorem dispatch_of_ok {s : Ingest C} {e : Event} {report : Report}
    (h : (s.hub.dispatch mode (clock s.dispatched) e).report = .ok report) :
    s.dispatch mode clock e =
      { s with
        hub := (s.hub.dispatch mode (clock s.dispatched) e).hub
        stop := s.stop || (s.hub.dispatch mode (clock s.dispatched) e).raisesStop
        notices := s.notices ++ (s.hub.dispatch mode (clock s.dispatched) e).notices
        dispatched := s.dispatched + 1 } := by
  simp only [dispatch, h]

theorem follow_of_stop {s : Ingest C} (h : s.stop = true) : s.follow mode clock = s := by
  rw [follow, h, Bool.true_or, if_pos rfl]

theorem follow_of_none {s s' : Ingest C} (hstop : s.stop = false) (hfault : s.fault = none)
    (hnext : s.next = (none, s')) : s.follow mode clock = s' := by
  rw [follow, hstop, hfault, Option.isSome_none, Bool.or_false, if_neg Bool.false_ne_true]
  split
  · rename_i heq
    rw [hnext] at heq
    cases heq
    rfl
  · rename_i heq
    rw [hnext] at heq
    cases heq

theorem follow_of_some {s s' : Ingest C} {e : Event} (hstop : s.stop = false)
    (hfault : s.fault = none) (hnext : s.next = (some e, s')) :
    s.follow mode clock = (s'.dispatch mode clock e).follow mode clock := by
  rw [follow, hstop, hfault, Option.isSome_none, Bool.or_false, if_neg Bool.false_ne_true]
  split
  · rename_i heq
    rw [hnext] at heq
    cases heq
  · rename_i heq
    rw [hnext] at heq
    cases heq
    rfl

theorem flush_of_none {s s' : Ingest C} (hfault : s.fault = none)
    (hnext : s.next = (none, s')) : s.flush mode clock = s' := by
  rw [flush, hfault, Option.isSome_none, if_neg Bool.false_ne_true]
  split
  · rename_i heq
    rw [hnext] at heq
    cases heq
    rfl
  · rename_i heq
    rw [hnext] at heq
    cases heq

theorem flush_of_some {s s' : Ingest C} {e : Event} (hfault : s.fault = none)
    (hnext : s.next = (some e, s')) :
    s.flush mode clock = (s'.dispatch mode clock e).flush mode clock := by
  rw [flush, hfault, Option.isSome_none, if_neg Bool.false_ne_true]
  split
  · rename_i heq
    rw [hnext] at heq
    cases heq
  · rename_i heq
    rw [hnext] at heq
    cases heq
    rfl

theorem faultFree_silent (hub : Hub C) (n : Nat) (events : List Event) :
    FaultFree (hub.dispatchEach .silent clock n events).1 := by
  induction events generalizing hub n with
  | nil => exact fun out hmem => nomatch hmem
  | cons e events ih =>
    exact List.forall_mem_cons.2 ⟨hub.report_silent (clock n) e, ih _ _⟩

/-! ## Many reads -/

/-- A loop on a ring that held some events, after it dispatched the first `k` of them one after the
other, and nothing else. -/
structure Advanced (mode : OverflowMode) (clock : Nat → Int64) (s : Ingest C) (events : List Event)
    (k : Nat) (s' : Ingest C) : Prop where
  hub_eq : s'.hub = (s.hub.dispatchEach mode clock s.dispatched (events.take k)).2
  stop_eq : s'.stop =
    (s.stop || (s.hub.dispatchEach mode clock s.dispatched (events.take k)).1.any (·.raisesStop))
  dispatched_eq : s'.dispatched = s.dispatched + k
  fault_eq : s'.fault = none
  holds : s'.source.ring.Holds (events.drop k)
  writers_eq : s'.source.writers = s.source.writers

namespace Advanced

variable {s s' : Ingest C} {events : List Event} {k : Nat}

theorem zero (hholds : s.source.ring.Holds events) (hfault : s.fault = none) :
    Advanced mode clock s events 0 s where
  hub_eq := by rw [List.take_zero, Hub.dispatchEach_nil]
  stop_eq := by rw [List.take_zero, Hub.dispatchEach_nil, List.any_nil, Bool.or_false]
  dispatched_eq := rfl
  fault_eq := hfault
  holds := hholds
  writers_eq := rfl

theorem refused {source : Pipe Event} (hholds : source.ring.Holds [])
    (hwriters : source.writers = s.source.writers) (hfault : s.fault = none) :
    Advanced mode clock s [] 0 (s.withSource source) where
  hub_eq := rfl
  stop_eq := (Bool.or_false _).symm
  dispatched_eq := rfl
  fault_eq := hfault
  holds := hholds
  writers_eq := hwriters

theorem succ {source : Pipe Event} {e : Event} {report : Report}
    (hwriters : source.writers = s.source.writers)
    (hreport : (s.hub.dispatch mode (clock s.dispatched) e).report = .ok report)
    (h : Advanced mode clock ((s.withSource source).dispatch mode clock e) events k s') :
    Advanced mode clock s (e :: events) (k + 1) s' := by
  rw [dispatch_of_ok (s := s.withSource source) hreport] at h
  exact {
    hub_eq := h.hub_eq
    stop_eq := by
      rw [h.stop_eq, List.take_succ_cons, Hub.dispatchEach_cons, List.any_cons, ← Bool.or_assoc]
      rfl
    dispatched_eq := by
      rw [h.dispatched_eq]
      show s.dispatched + 1 + k = s.dispatched + (k + 1)
      omega
    fault_eq := h.fault_eq
    holds := h.holds
    writers_eq := h.writers_eq.trans hwriters }

/-- What follows the first events is dispatched from where they left the loop. -/
theorem dispatchEach_eq (hle : k ≤ events.length) (h : Advanced mode clock s events k s')
    (later : List Event) :
    s.hub.dispatchEach mode clock s.dispatched (events.take k ++ later) =
      ((s.hub.dispatchEach mode clock s.dispatched (events.take k)).1 ++
          (s'.hub.dispatchEach mode clock s'.dispatched later).1,
        (s'.hub.dispatchEach mode clock s'.dispatched later).2) := by
  have hlength : (events.take k).length = k := List.length_take_of_le hle
  rw [Hub.dispatchEach_append, hlength, h.hub_eq, h.dispatched_eq]

theorem trans {s'' : Ingest C} {j : Nat} (hle : k ≤ events.length)
    (h : Advanced mode clock s events k s')
    (hmore : Advanced mode clock s' (events.drop k) j s'') :
    Advanced mode clock s events (k + j) s'' := by
  have hsplit := h.dispatchEach_eq hle ((events.drop k).take j)
  rw [← List.take_add] at hsplit
  exact {
    hub_eq := by rw [hmore.hub_eq, hsplit]
    stop_eq := by rw [hmore.stop_eq, h.stop_eq, hsplit, List.any_append, Bool.or_assoc]
    dispatched_eq := by rw [hmore.dispatched_eq, h.dispatched_eq, Nat.add_assoc]
    fault_eq := hmore.fault_eq
    holds := by
      rw [← List.drop_drop]
      exact hmore.holds
    writers_eq := hmore.writers_eq.trans h.writers_eq }

end Advanced

/-- Following a ring, a loop gets as far as the moment at which it ends. -/
theorem EndsAfter.follow {writersGone : Bool} {s : Ingest C} {events : List Event} {k : Nat}
    (hend : EndsAfter writersGone (s.hub.dispatchEach mode clock s.dispatched events).1 s.stop k)
    (hholds : s.source.ring.Holds events) (hfault : s.fault = none)
    (hfree : FaultFree (s.hub.dispatchEach mode clock s.dispatched (events.take k)).1) :
    Advanced mode clock s events k (s.follow mode clock) := by
  induction events generalizing s k with
  | nil =>
    cases hstop : s.stop with
    | true =>
      rw [hstop] at hend
      cases hend
      rw [follow_of_stop hstop]
      exact .zero hholds hfault
    | false =>
      obtain ⟨source, hnext, hempty, hwriters⟩ := next_nil hholds
      obtain rfl := Nat.le_zero.1 hend.le
      rw [follow_of_none hstop hfault hnext]
      exact .refused hempty hwriters hfault
  | cons e events ih =>
    cases hstop : s.stop with
    | true =>
      rw [hstop] at hend
      cases hend
      rw [follow_of_stop hstop]
      exact .zero hholds hfault
    | false =>
      rw [hstop] at hend
      obtain ⟨k, rfl, hend⟩ := hend.cons
      obtain ⟨⟨report, hreport⟩, hfree⟩ := List.forall_mem_cons.1 hfree
      obtain ⟨source, hnext, hrest, hwriters⟩ := next_cons hholds
      rw [follow_of_some hstop hfault hnext]
      refine .succ hwriters hreport ?_
      rw [dispatch_of_ok (s := s.withSource source) hreport]
      refine ih ?_ hrest hfault hfree
      show EndsAfter _ _ (s.stop || _) k
      rwa [hstop, Bool.false_or]

/-- Flushing a ring, a loop gets through all of its events. -/
theorem Advanced.flush {s : Ingest C} {events : List Event} (hholds : s.source.ring.Holds events)
    (hfault : s.fault = none)
    (hfree : FaultFree (s.hub.dispatchEach mode clock s.dispatched events).1) :
    Advanced mode clock s events events.length (s.flush mode clock) := by
  induction events generalizing s with
  | nil =>
    obtain ⟨source, hnext, hempty, hwriters⟩ := next_nil hholds
    rw [flush_of_none hfault hnext]
    exact .refused hempty hwriters hfault
  | cons e events ih =>
    obtain ⟨⟨report, hreport⟩, hfree⟩ := List.forall_mem_cons.1 hfree
    obtain ⟨source, hnext, hrest, hwriters⟩ := next_cons hholds
    rw [flush_of_some hfault hnext]
    refine .succ hwriters hreport ?_
    rw [dispatch_of_ok (s := s.withSource source) hreport]
    exact ih hrest hfault hfree

/-- Flushing a ring at most `n` times, a loop gets through `n` of its events, or all of them. -/
theorem Advanced.flushAtMost {s : Ingest C} {events : List Event}
    (hholds : s.source.ring.Holds events) (hfault : s.fault = none) (n : Nat)
    (hfree : FaultFree (s.hub.dispatchEach mode clock s.dispatched (events.take n)).1) :
    Advanced mode clock s events (min n events.length) (s.flushAtMost mode clock n) := by
  induction n generalizing s events with
  | zero =>
    rw [Nat.zero_min]
    exact .zero hholds hfault
  | succ n ih =>
    rw [Ingest.flushAtMost, hfault, Option.isSome_none, if_neg Bool.false_ne_true]
    cases events with
    | nil =>
      obtain ⟨source, hnext, hempty, hwriters⟩ := next_nil hholds
      rw [hnext]
      exact .refused hempty hwriters hfault
    | cons e events =>
      obtain ⟨⟨report, hreport⟩, hfree⟩ := List.forall_mem_cons.1 hfree
      obtain ⟨source, hnext, hrest, hwriters⟩ := next_cons hholds
      rw [hnext, List.length_cons, Nat.add_min_add_right]
      dsimp only
      refine .succ hwriters hreport ?_
      rw [dispatch_of_ok (s := s.withSource source) hreport]
      exact ih hrest hfault hfree

end Ingest

end DepthFeed

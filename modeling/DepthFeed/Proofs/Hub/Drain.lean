import DepthFeed.Proofs.Hub.Shutdown
import DepthFeed.Proofs.Ring.Handles

/-!
# A loop that drains its ring

What the ingest loop does to a ring under the rule to drain it, whether it is stopped, finds its ring
abandoned, or still waits for a writer.

* `Hub.sameHandles_run`: it leaves the handles on its ring as they are, and the capacity.
* `Hub.run_drain`: it gets through all events of its ring.
-/

namespace DepthFeed

/-! ## What the loop leaves as it is -/

namespace Ingest

variable {C : Type}

theorem sameHandles_next {s s' : Ingest C} {e : Option Event} (h : s.next = (e, s')) :
    s.source.SameHandles s'.source := by
  obtain rfl : s.withSource s.source.read.2 = s' := congrArg Prod.snd h
  exact .read s.source

variable [Consumer C] {mode : OverflowMode} {clock : Nat → Int64}

theorem sameHandles_dispatch {s s' : Ingest C} {e : Event} (h : s.next = (some e, s')) :
    s.source.SameHandles (s'.dispatch mode clock e).source := by
  rw [source_dispatch]
  exact sameHandles_next h

theorem sameHandles_follow (s : Ingest C) :
    s.source.SameHandles (s.follow mode clock).source := by
  fun_induction follow mode clock s with
  | case1 s hover => exact .refl s.source
  | case2 s hgoes s' hnext => exact sameHandles_next hnext
  | case3 s hgoes e s' hnext ih => exact (sameHandles_dispatch hnext).trans ih

theorem sameHandles_flush (s : Ingest C) :
    s.source.SameHandles (s.flush mode clock).source := by
  fun_induction flush mode clock s with
  | case1 s hfault => exact .refl s.source
  | case2 s hgoes s' hnext => exact sameHandles_next hnext
  | case3 s hgoes e s' hnext ih => exact (sameHandles_dispatch hnext).trans ih

theorem sameHandles_flushAtMost (s : Ingest C) (n : Nat) :
    s.source.SameHandles (s.flushAtMost mode clock n).source := by
  fun_induction flushAtMost mode clock s n with
  | case1 s => exact .refl s.source
  | case2 s n hfault => exact .refl s.source
  | case3 s n hgoes s' hnext => exact sameHandles_next hnext
  | case4 s n hgoes e s' hnext ih => exact (sameHandles_dispatch hnext).trans ih

omit [Consumer C] in
theorem sameHandles_conclude (s : Ingest C) (discarded : Nat) :
    s.source.SameHandles (s.conclude discarded).1.source := by
  unfold conclude
  split <;> exact .refl s.source

theorem sameHandles_shutDown (s : Ingest C) :
    s.source.SameHandles (s.shutDown mode clock .drain).1.source := by
  have hfirst : s.source.SameHandles (if s.stop then s else s.flush mode clock).source := by
    split
    · exact .refl s.source
    · exact sameHandles_flush s
  unfold shutDown
  dsimp only
  generalize (if s.stop then s else s.flush mode clock) = t at hfirst
  cases t.fault with
  | some fault => exact hfirst.trans (sameHandles_conclude t 0)
  | none => exact hfirst.trans ((sameHandles_flush t).trans (sameHandles_conclude _ 0))

/-! ## Draining -/

omit [Consumer C] in
/-- Where its writers are gone, every loop ends. -/
theorem exists_endsAfter (outs : List (Dispatched C)) (stop : Bool) :
    ∃ k, EndsAfter true outs stop k := by
  cases stop with
  | true => exact ⟨0, .atOnce⟩
  | false =>
    cases hfind : outs.find? (·.raisesStop) with
    | none =>
      refine ⟨_, .abandoned (fun out hmem => ?_) rfl⟩
      simpa using List.find?_eq_none.1 hfind out hmem
    | some out =>
      obtain ⟨hout, earlier, later, houts, hearlier⟩ := List.find?_eq_some_iff_append.1 hfind
      refine ⟨_, .raised houts (fun other hmem => ?_) hout⟩
      simpa using hearlier other hmem

theorem Advanced.conclude {s t : Ingest C} {events : List Event} {k : Nat}
    (h : Advanced mode clock s events k t) (discarded : Nat) :
    Advanced mode clock s events k (t.conclude discarded).1 := by
  have hfault := h.fault_eq
  simp only [Ingest.conclude, hfault]
  exact ⟨h.hub_eq, h.stop_eq, h.dispatched_eq, rfl, h.holds, h.writers_eq⟩

end Ingest

namespace Hub

open Ingest

variable {C : Type} [Consumer C] {clock : Nat → Int64}

/-- A loop that drains its ring gets through all of its events, also while it waits for more. -/
theorem run_drain {source : Pipe Event} {events : List Event} (hholds : source.ring.Holds events)
    (hub : Hub C) (stop : Bool) :
    Advanced .silent clock (beginRun hub source stop) events events.length
      (hub.run .silent clock source stop .drain).1 := by
  obtain ⟨k, hend⟩ := exists_endsAfter (hub.dispatchEach .silent clock 0 events).1 stop
  have hle : k ≤ events.length := by
    have hk := hend.le
    rwa [length_dispatchEach] at hk
  have hfollowed : Advanced .silent clock (beginRun hub source stop) events k
      ((beginRun hub source stop).follow .silent clock) :=
    hend.follow hholds rfl (faultFree_silent _ _ _)
  have hended := EndsAfter.stop_or_through (s := beginRun hub source stop) hend hfollowed
  unfold run
  generalize (beginRun hub source stop).follow .silent clock = t at hfollowed hended ⊢
  dsimp only
  split
  · have hflushed : ∃ j ≤ events.length, Advanced .silent clock (beginRun hub source stop) events j
        (if t.stop then t else t.flush .silent clock) := by
      split
      · exact ⟨k, hle, hfollowed⟩
      · exact ⟨_, le_rfl, hfollowed.thenFlush hle (faultFree_silent _ _ _)⟩
    obtain ⟨j, hj, hflushed⟩ := hflushed
    rw [shutDown_of_fault_none .drain rfl hflushed.fault_eq]
    exact (hflushed.thenFlush hj (faultFree_silent _ _ _)).conclude 0
  · rename_i hgoes
    rcases hended with hstop | ⟨-, rfl⟩
    · simp [isOver, hstop] at hgoes
    · exact hfollowed

theorem sameHandles_run (hub : Hub C) (source : Pipe Event) (stop : Bool) :
    source.SameHandles (hub.run .silent clock source stop .drain).1.source := by
  have hfollow : source.SameHandles ((beginRun hub source stop).follow .silent clock).source :=
    sameHandles_follow (beginRun hub source stop)
  unfold run
  dsimp only
  split
  · exact hfollow.trans (sameHandles_shutDown _)
  · exact hfollow

end Hub

end DepthFeed

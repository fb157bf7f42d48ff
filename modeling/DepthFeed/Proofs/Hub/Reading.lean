import Mathlib.Data.List.Basic
import DepthFeed.Proofs.Hub.Drain

/-!
# What a loop reads while others write

A part of an ingest loop that ends without a fault dispatched some events one after the other, also
where somebody wrote to its ring meanwhile.

* `Pipe.Offers`: a ring that can be read, with the items in it.
* `Ingest.Reads`: a loop after it read and dispatched some events.
* `Ingest.exists_reads_follow`, `Ingest.exists_reads_feed`, `Ingest.exists_reads_shutDown`: each part
  of a loop is one that reads.
-/

namespace DepthFeed

/-- A ring whose reader is open, with the items in it, oldest first. -/
structure Pipe.Offers {α : Type} (p : Pipe α) (items : List α) : Prop where
  readerOpen : p.readerOpen = true
  holds : p.ring.Holds items

variable {C : Type} [Consumer C]

namespace Ingest

variable {mode : OverflowMode} {clock : Nat → Int64} {s s' s'' : Ingest C}
  {fed fed' events events' : List Event}

/-! ## Faults

A loop that ends without a fault had none before. -/

theorem report_of_fault_none {e : Event} (hfault : (s.dispatch mode clock e).fault = none) :
    ∃ report, (s.hub.dispatch mode (clock s.dispatched) e).report = .ok report := by
  cases hreport : (s.hub.dispatch mode (clock s.dispatched) e).report with
  | error fault =>
    simp only [dispatch, hreport] at hfault
    cases hfault
  | ok report => exact ⟨report, rfl⟩

theorem follow_of_fault {fault : Fault} (hfault : s.fault = some fault) :
    s.follow mode clock = s := by
  rw [follow, hfault, Option.isSome_some, Bool.or_true, if_pos rfl]

theorem flush_of_fault {fault : Fault} (hfault : s.fault = some fault) :
    s.flush mode clock = s := by
  rw [flush, hfault, Option.isSome_some, if_pos rfl]

omit [Consumer C] in
theorem fault_of_stays {t : Ingest C} (hstays : ∀ {fault}, s.fault = some fault → t = s)
    (hfault : t.fault = none) : s.fault = none := by
  cases hbefore : s.fault with
  | none => rfl
  | some fault =>
    rw [hstays hbefore, hbefore] at hfault
    cases hfault

theorem fault_follow (hfault : (s.follow mode clock).fault = none) : s.fault = none :=
  fault_of_stays follow_of_fault hfault

theorem fault_flush (hfault : (s.flush mode clock).fault = none) : s.fault = none :=
  fault_of_stays flush_of_fault hfault

theorem fault_flushAtMost {n : Nat} (hfault : (s.flushAtMost mode clock n).fault = none) :
    s.fault = none :=
  fault_of_stays (fun hbefore => flushAtMost_of_fault hbefore n) hfault

theorem fault_feed {s : Ingest C} {writer : Nat}
    (hfault : (s.feed mode clock writer fed).fault = none) : s.fault = none := by
  induction fed generalizing s with
  | nil => exact hfault
  | cons e fed ih =>
    rw [feed] at hfault
    have hwritten := fault_follow (ih hfault)
    exact fault_follow hwritten

omit [Consumer C] in
theorem fault_conclude {discarded : Nat} (hfault : (s.conclude discarded).1.fault = none) :
    s.fault = none := by
  unfold conclude at hfault
  split at hfault
  · exact hfault
  · assumption

theorem fault_shutDown {rule : ShutdownRule}
    (hfault : (s.shutDown mode clock rule).1.fault = none) :
    (if s.stop then s else s.flush mode clock).fault = none := by
  cases hbefore : (if s.stop then s else s.flush mode clock).fault with
  | none => rfl
  | some fault =>
    simp only [shutDown, hbefore, conclude] at hfault
    cases hfault

/-! ## Parts of a loop -/

/-- A loop after it read some events and dispatched them without a fault. They are the first ones of
its ring, where those that were taken of the ones fed to it came after what it held. -/
structure Reads (mode : OverflowMode) (clock : Nat → Int64) (fed : List Event) (s : Ingest C)
    (events : List Event) (s' : Ingest C) : Prop where
  hub_eq : s'.hub = (s.hub.dispatchEach mode clock s.dispatched events).2
  notices_eq : s'.notices = s.notices ++
    (s.hub.dispatchEach mode clock s.dispatched events).1.flatMap Dispatched.notices
  dispatched_eq : s'.dispatched = s.dispatched + events.length
  faultFree : FaultFree (s.hub.dispatchEach mode clock s.dispatched events).1
  offers {held : List Event} : s.source.Offers held →
    ∃ taken rest, taken.Sublist fed ∧ events ++ rest = held ++ taken ∧ s'.source.Offers rest

namespace Reads

/-- Others use the ring. -/
theorem of_source {source : Pipe Event}
    (hsource : ∀ {held}, s.source.Offers held →
      ∃ taken, taken.Sublist fed ∧ source.Offers (held ++ taken)) :
    Reads mode clock fed s [] (s.withSource source) where
  hub_eq := rfl
  notices_eq := (List.append_nil _).symm
  dispatched_eq := rfl
  faultFree _ hmem := nomatch hmem
  offers {held} hoffers := by
    obtain ⟨taken, htaken, hnext⟩ := hsource hoffers
    exact ⟨taken, held ++ taken, htaken, rfl, hnext⟩

/-- Nothing happens to the items of the ring. -/
theorem of_same {source : Pipe Event}
    (hsource : ∀ {held}, s.source.Offers held → source.Offers held) :
    Reads mode clock [] s [] (s.withSource source) :=
  of_source fun {held} hoffers =>
    ⟨[], List.Sublist.refl [], (List.append_nil held).symm ▸ hsource hoffers⟩

theorem refl (s : Ingest C) : Reads mode clock [] s [] s := of_same id

theorem trans (h : Reads mode clock fed s events s') (h' : Reads mode clock fed' s' events' s'') :
    Reads mode clock (fed ++ fed') s (events ++ events') s'' := by
  have hsplit : s.hub.dispatchEach mode clock s.dispatched (events ++ events') =
      ((s.hub.dispatchEach mode clock s.dispatched events).1 ++
          (s'.hub.dispatchEach mode clock s'.dispatched events').1,
        (s'.hub.dispatchEach mode clock s'.dispatched events').2) := by
    rw [Hub.dispatchEach_append, ← h.hub_eq, ← h.dispatched_eq]
  constructor
  · rw [h'.hub_eq, hsplit]
  · rw [h'.notices_eq, h.notices_eq, hsplit, List.flatMap_append, List.append_assoc]
  · rw [h'.dispatched_eq, h.dispatched_eq, List.length_append, Nat.add_assoc]
  · rw [hsplit]
    intro out hmem
    rcases List.mem_append.1 hmem with hearlier | hlater
    · exact h.faultFree out hearlier
    · exact h'.faultFree out hlater
  · intro held hoffers
    obtain ⟨taken, rest, htaken, hfirst, hrest⟩ := h.offers hoffers
    obtain ⟨taken', rest', htaken', hsecond, hrest'⟩ := h'.offers hrest
    refine ⟨taken ++ taken', rest', htaken.append htaken', ?_, hrest'⟩
    rw [List.append_assoc, hsecond, ← List.append_assoc, hfirst, List.append_assoc]

theorem of_next_some {e : Event} (hnext : s.next = (some e, s'))
    (hfault : (s'.dispatch mode clock e).fault = none) :
    Reads mode clock [] s [e] (s'.dispatch mode clock e) := by
  obtain ⟨report, hreport⟩ := report_of_fault_none hfault
  obtain rfl : s.withSource s.source.read.2 = s' := congrArg Prod.snd hnext
  rw [dispatch_of_ok hreport]
  refine ⟨rfl, ?_, rfl, ?_, ?_⟩
  · rw [Hub.dispatchEach_cons, Hub.dispatchEach_nil, List.flatMap_singleton]
    rfl
  · exact List.forall_mem_singleton.2 ⟨report, hreport⟩
  · intro held hoffers
    have hread : s.source.read.1 = some e := congrArg Prod.fst hnext
    obtain ⟨hhead, hrest⟩ := hoffers.holds.pop
    have hheld : e :: held.tail = held :=
      List.cons_head?_tail (Option.mem_def.2 (hhead.symm.trans hread))
    refine ⟨[], held.tail, List.Sublist.refl [], ?_, hoffers.readerOpen, hrest⟩
    rw [List.append_nil, List.singleton_append, hheld]

theorem of_next_none (hnext : s.next = (none, s')) : Reads mode clock [] s [] s' := by
  obtain rfl : s.withSource s.source.read.2 = s' := congrArg Prod.snd hnext
  refine of_same fun {held} hoffers => ?_
  have hread : s.source.read.1 = none := congrArg Prod.fst hnext
  obtain ⟨hhead, hrest⟩ := hoffers.holds.pop
  obtain rfl := List.head?_eq_none_iff.1 (hhead.symm.trans hread)
  exact ⟨hoffers.readerOpen, hrest⟩

end Reads

/-- What a loop dispatches while it follows its ring. -/
theorem exists_reads_follow (s : Ingest C) (hfault : (s.follow mode clock).fault = none) :
    ∃ events, Reads mode clock [] s events (s.follow mode clock) := by
  fun_induction follow mode clock s with
  | case1 s hover => exact ⟨[], .refl s⟩
  | case2 s hgoes s' hnext => exact ⟨[], .of_next_none hnext⟩
  | case3 s hgoes e s' hnext ih =>
    obtain ⟨events, hreads⟩ := ih hfault
    exact ⟨e :: events, (Reads.of_next_some hnext (fault_follow hfault)).trans hreads⟩

theorem exists_reads_flush (s : Ingest C) (hfault : (s.flush mode clock).fault = none) :
    ∃ events, Reads mode clock [] s events (s.flush mode clock) := by
  fun_induction flush mode clock s with
  | case1 s hover => exact ⟨[], .refl s⟩
  | case2 s hgoes s' hnext => exact ⟨[], .of_next_none hnext⟩
  | case3 s hgoes e s' hnext ih =>
    obtain ⟨events, hreads⟩ := ih hfault
    exact ⟨e :: events, (Reads.of_next_some hnext (fault_flush hfault)).trans hreads⟩

theorem exists_reads_flushAtMost (s : Ingest C) (n : Nat)
    (hfault : (s.flushAtMost mode clock n).fault = none) :
    ∃ events, Reads mode clock [] s events (s.flushAtMost mode clock n) := by
  fun_induction flushAtMost mode clock s n with
  | case1 s => exact ⟨[], .refl s⟩
  | case2 s n hover => exact ⟨[], .refl s⟩
  | case3 s n hgoes s' hnext => exact ⟨[], .of_next_none hnext⟩
  | case4 s n hgoes e s' hnext ih =>
    obtain ⟨events, hreads⟩ := ih hfault
    exact ⟨e :: events, (Reads.of_next_some hnext (fault_flushAtMost hfault)).trans hreads⟩

/-! ## Feeding and shutting down -/

omit [Consumer C] in
/-- A written event joins those of the ring, or is refused. -/
theorem exists_offers_write {source : Pipe Event} {held : List Event} (hoffers : source.Offers held)
    (writer : Nat) (e : Event) :
    ∃ taken, taken.Sublist [e] ∧ (source.write writer e).2.Offers (held ++ taken) := by
  obtain ⟨-, hwritten, hsame⟩ := Pipe.write_of_holds hoffers.holds writer e
  have hopen := hsame.readerOpen_eq.trans hoffers.readerOpen
  split at hwritten
  · exact ⟨[e], List.Sublist.refl [e], hopen, hwritten⟩
  · refine ⟨[], List.nil_sublist [e], hopen, ?_⟩
    rwa [List.append_nil]

omit [Consumer C] in
theorem offers_closeWriter {source : Pipe Event} {held : List Event} (hoffers : source.Offers held)
    (writer : Nat) : (source.closeWriter writer).2.Offers held := by
  obtain ⟨hring, hopen⟩ := source.closeWriter_keeps hoffers.readerOpen writer
  exact ⟨hopen.trans hoffers.readerOpen, hring ▸ hoffers.holds⟩

/-- What a loop dispatches while events are fed to it. -/
theorem exists_reads_feed (s : Ingest C) (writer : Nat) (fed : List Event)
    (hfault : (s.feed mode clock writer fed).fault = none) :
    ∃ events, Reads mode clock fed s events (s.feed mode clock writer fed) := by
  induction fed generalizing s with
  | nil => exact ⟨[], .refl s⟩
  | cons e fed ih =>
    rw [feed] at hfault ⊢
    have hagain := fault_feed hfault
    have hwritten := fault_follow hagain
    have hwrite : Reads mode clock [e] (s.follow mode clock) []
        ((s.follow mode clock).withSource ((s.follow mode clock).source.write writer e).2) :=
      .of_source fun hoffers => exists_offers_write hoffers writer e
    obtain ⟨first, hfirst⟩ := s.exists_reads_follow hwritten
    obtain ⟨second, hsecond⟩ := exists_reads_follow _ hagain
    obtain ⟨third, hthird⟩ := ih _ hfault
    exact ⟨_, hfirst.trans (hwrite.trans (hsecond.trans hthird))⟩

/-- The notices at the end of a loop. -/
def closing (dispatched discarded : Nat) : List Notice :=
  (if 0 < discarded then [.eventsDiscarded discarded] else []) ++ [.loopStopped dispatched discarded]

omit [Consumer C] in
theorem conclude_of_none (hfault : s.fault = none) (discarded : Nat) :
    s.conclude discarded =
      ({ s with notices := s.notices ++ closing s.dispatched discarded },
        .ok ⟨s.dispatched, discarded⟩) := by
  unfold conclude
  rw [hfault]
  dsimp only
  rw [List.append_assoc]
  rfl

/-- What a loop dispatches while it shuts down, with its summary and its last notices. -/
theorem exists_reads_shutDown (s : Ingest C) (rule : ShutdownRule)
    (hfault : (s.shutDown mode clock rule).1.fault = none) :
    s.fault = none ∧ ∃ events last source discarded, Reads mode clock [] s events last ∧
      s.shutDown mode clock rule =
        ({ last with
            source := source
            notices := last.notices ++ closing last.dispatched discarded },
          .ok ⟨last.dispatched, discarded⟩) := by
  have hflushed := fault_shutDown hfault
  have hreads : s.fault = none ∧ ∃ events, Reads mode clock [] s events
      (if s.stop then s else s.flush mode clock) := by
    split at hflushed
    · rename_i hstop
      rw [if_pos hstop]
      exact ⟨hflushed, [], .refl s⟩
    · rename_i hgoes
      rw [if_neg hgoes]
      exact ⟨fault_flush hflushed, s.exists_reads_flush hflushed⟩
  generalize ht : (if s.stop then s else s.flush mode clock) = t at hflushed hreads
  obtain ⟨hnone, events, hreads⟩ := hreads
  refine ⟨hnone, ?_⟩
  rw [shutDown_of_fault_none rule ht hflushed] at hfault ⊢
  cases rule with
  | drain =>
    have hdrained := fault_conclude hfault
    obtain ⟨more, hmore⟩ := t.exists_reads_flush hdrained
    exact ⟨_, _, _, 0, hreads.trans hmore, conclude_of_none hdrained 0⟩
  | discard => exact ⟨_, _, _, _, hreads, conclude_of_none (fault_conclude hfault) _⟩

end Ingest

end DepthFeed

import DepthFeed.Proofs.Hub.Dispatches
import DepthFeed.Proofs.Stats.Table

/-!
# Dispatching event by event

`Hub.dispatchEach` dispatches some events one after the other. The clock is read once for each of
them, and what it reads is seen in the latencies of a hub and nowhere else.

* `Hub.SameButLatencies`: two hubs that differ in no more than the latencies of their streams.
* `Hub.SameButLatencies.dispatch`: a dispatch tells the same in both, whatever the clocks read, and
  keeps them so.
* `Hub.SameButLatencies.dispatchEach`: so do any number of dispatches.
-/

namespace DepthFeed

/-- The counters without what the latencies left in them. -/
def Counters.forgetLatencies (c : Counters) : Counters :=
  { c with latencySum := 0, worstLatency := 0 }

/-- Tables of the same streams, whose counters differ in no more than their latencies. -/
def StatsTable.SameButLatencies (t t' : StatsTable) : Prop :=
  ∀ stream, (t.get? stream).map Counters.forgetLatencies =
    (t'.get? stream).map Counters.forgetLatencies

/-- What a dispatch tells besides the hub after it. -/
structure Outcome where
  notices : List Notice
  report : Except Fault Report
  raisesStop : Bool

variable {C : Type}

def Dispatched.outcome (out : Dispatched C) : Outcome := ⟨out.notices, out.report, out.raisesStop⟩

namespace Hub

/-- Each of some events dispatched in turn where the clock was read `n` times before, with the hub
after them. -/
def dispatchEach [Consumer C] (mode : OverflowMode) (clock : Nat → Int64) (hub : Hub C) (n : Nat) :
    List Event → List (Dispatched C) × Hub C
  | [] => ([], hub)
  | e :: events =>
    let out := hub.dispatch mode (clock n) e
    let (outs, last) := out.hub.dispatchEach mode clock (n + 1) events
    (out :: outs, last)

/-- Hubs that differ in no more than the latencies of their streams. -/
structure SameButLatencies (hub hub' : Hub C) : Prop where
  subscriptions_eq : hub.subscriptions = hub'.subscriptions
  nextId_eq : hub.nextId = hub'.nextId
  monitor_eq : hub.monitor = hub'.monitor
  alerts_eq : hub.alerts = hub'.alerts
  droppedAlerts_eq : hub.droppedAlerts = hub'.droppedAlerts
  dispatched_eq : hub.dispatched = hub'.dispatched
  stats : hub.stats.SameButLatencies hub'.stats

section Each

variable [Consumer C] (mode : OverflowMode) (clock : Nat → Int64)

@[simp]
theorem dispatchEach_nil (hub : Hub C) (n : Nat) :
    hub.dispatchEach mode clock n [] = ([], hub) := rfl

@[simp]
theorem dispatchEach_cons (hub : Hub C) (n : Nat) (e : Event) (events : List Event) :
    hub.dispatchEach mode clock n (e :: events) =
      (hub.dispatch mode (clock n) e ::
          ((hub.dispatch mode (clock n) e).hub.dispatchEach mode clock (n + 1) events).1,
        ((hub.dispatch mode (clock n) e).hub.dispatchEach mode clock (n + 1) events).2) := rfl

@[simp]
theorem length_dispatchEach (hub : Hub C) (n : Nat) (events : List Event) :
    (hub.dispatchEach mode clock n events).1.length = events.length := by
  induction events generalizing hub n with
  | nil => rfl
  | cons e events ih => simp [ih]

theorem report_silent (hub : Hub C) (now : Int64) (e : Event) :
    ∃ report, (hub.dispatch .silent now e).report = .ok report := by
  obtain ⟨report, hreport, -⟩ := hub.dispatches now e
  exact ⟨report, hreport⟩

theorem dispatchEach_append (hub : Hub C) (n : Nat) (earlier later : List Event) :
    hub.dispatchEach mode clock n (earlier ++ later) =
      ((hub.dispatchEach mode clock n earlier).1 ++
          ((hub.dispatchEach mode clock n earlier).2.dispatchEach mode clock (n + earlier.length)
            later).1,
        ((hub.dispatchEach mode clock n earlier).2.dispatchEach mode clock (n + earlier.length)
          later).2) := by
  induction earlier generalizing hub n with
  | nil => rfl
  | cons e earlier ih =>
    have hcount : n + 1 + earlier.length = n + (e :: earlier).length := by
      rw [List.length_cons]
      omega
    simp only [List.cons_append, dispatchEach_cons, ih, hcount]

theorem dispatchEach_take (hub : Hub C) (n : Nat) (events : List Event) (k : Nat) :
    (hub.dispatchEach mode clock n (events.take k)).1 =
      (hub.dispatchEach mode clock n events).1.take k := by
  induction events generalizing hub n k with
  | nil => simp
  | cons e events ih =>
    cases k with
    | zero => rfl
    | succ k => simp [ih]

end Each

end Hub

/-! ## The clock -/

namespace StatsTable

namespace SameButLatencies

variable {t t' : StatsTable}

/-- Changes that agree except for latencies keep tables so, and tell the same of new streams. -/
theorem record (h : t.SameButLatencies t') (stream : StreamId) {change change' : Counters → Counters}
    (hchange : ∀ c c' : Counters, c.forgetLatencies = c'.forgetLatencies →
      (change c).forgetLatencies = (change' c').forgetLatencies) :
    (t.record stream change).1.SameButLatencies (t'.record stream change').1 ∧
      (t.record stream change).2 = (t'.record stream change').2 := by
  constructor
  · intro other
    rw [get?_record, get?_record]
    split
    · refine congrArg some (hchange _ _ ?_)
      have hstream := h stream
      cases hget : t.get? stream <;> cases hget' : t'.get? stream <;> simp_all
    · exact h other
  · have hcontains : t.streams.contains stream = t'.streams.contains stream := by
      have hsome := congrArg Option.isSome (h stream)
      rw [Option.isSome_map, Option.isSome_map] at hsome
      simpa [get?] using hsome
    simp only [StatsTable.record, track, hcontains]
    split <;> rfl

theorem countMessage (h : t.SameButLatencies t') (stream : StreamId) (latency latency' : Int64) :
    (t.countMessage stream latency).1.SameButLatencies (t'.countMessage stream latency').1 ∧
      (t.countMessage stream latency).2 = (t'.countMessage stream latency').2 := by
  refine h.record stream fun c c' hc => ?_
  simp only [Counters.forgetLatencies, Counters.mk.injEq] at hc
  simp [Counters.forgetLatencies, Counters.countMessage, hc]

theorem countGap (h : t.SameButLatencies t') (stream : StreamId) (missing : UInt64) :
    (t.countGap stream missing).1.SameButLatencies (t'.countGap stream missing).1 := by
  refine (h.record stream fun c c' hc => ?_).1
  simp only [Counters.forgetLatencies, Counters.mk.injEq] at hc
  simp [Counters.forgetLatencies, Counters.countGap, hc]

end SameButLatencies

end StatsTable

namespace Hub.SameButLatencies

variable {hub hub' : Hub C}

theorem refl (hub : Hub C) : hub.SameButLatencies hub where
  subscriptions_eq := rfl
  nextId_eq := rfl
  monitor_eq := rfl
  alerts_eq := rfl
  droppedAlerts_eq := rfl
  dispatched_eq := rfl
  stats _ := rfl

theorem noteGap? (h : hub.SameButLatencies hub') (gap : Option Gap) :
    (hub.noteGap? gap).1.SameButLatencies (hub'.noteGap? gap).1 ∧
      (hub.noteGap? gap).2 = (hub'.noteGap? gap).2 := by
  cases gap with
  | none => exact ⟨h, rfl⟩
  | some gap =>
    have hcounted := h.stats.countGap gap.stream gap.missing
    simp only [Hub.noteGap?, noteGap, h.alerts_eq]
    split
    · exact ⟨{ h with stats := hcounted, alerts_eq := rfl }, rfl⟩
    · have hdropped := congrArg (· + 1) h.droppedAlerts_eq
      exact ⟨{ h with stats := hcounted, alerts_eq := rfl, droppedAlerts_eq := hdropped }, rfl⟩
    · exact ⟨{ h with stats := hcounted, alerts_eq := rfl }, rfl⟩

variable [Consumer C]

theorem deliverAll (h : hub.SameButLatencies hub') (e : Event) (gap : Option Gap) :
    (hub.deliverAll e gap).hub.SameButLatencies (hub'.deliverAll e gap).hub ∧
      (hub.deliverAll e gap).outcome = (hub'.deliverAll e gap).outcome := by
  have hdispatched := congrArg (· + 1) h.dispatched_eq
  simp only [Hub.deliverAll, Dispatched.outcome, h.subscriptions_eq]
  exact ⟨{ h with subscriptions_eq := rfl, dispatched_eq := hdispatched }, trivial⟩

/-- A dispatch tells the same whatever the clocks read. -/
theorem dispatch (h : hub.SameButLatencies hub') (mode : OverflowMode) (now now' : Int64)
    (e : Event) :
    (hub.dispatch mode now e).hub.SameButLatencies (hub'.dispatch mode now' e).hub ∧
      (hub.dispatch mode now e).outcome = (hub'.dispatch mode now' e).outcome := by
  obtain ⟨hcounted, hnotices⟩ :=
    h.stats.countMessage e.stream (latency now e) (latency now' e)
  simp only [Hub.dispatch, h.monitor_eq, hnotices]
  have hmoved : SameButLatencies
      { hub with
        stats := (hub.stats.countMessage e.stream (latency now e)).1
        monitor := (hub'.monitor.observe mode e.stream e.sequence).1 }
      { hub' with
        stats := (hub'.stats.countMessage e.stream (latency now' e)).1
        monitor := (hub'.monitor.observe mode e.stream e.sequence).1 } :=
    { h with monitor_eq := rfl, stats := hcounted }
  cases (hub'.monitor.observe mode e.stream e.sequence).2 with
  | error fault => exact ⟨hmoved, rfl⟩
  | ok gap =>
    obtain ⟨hnoted, htold⟩ := hmoved.noteGap? gap
    obtain ⟨hdelivered, houtcome⟩ := hnoted.deliverAll e gap
    simp only [Dispatched.outcome, Outcome.mk.injEq] at houtcome ⊢
    obtain ⟨hposted, hreport, hraises⟩ := houtcome
    refine ⟨hdelivered, ?_, hreport, hraises⟩
    rw [htold, hposted]

/-- So do dispatches one after the other. -/
theorem dispatchEach (h : hub.SameButLatencies hub') (mode : OverflowMode)
    (clock clock' : Nat → Int64) (n n' : Nat) (events : List Event) :
    (hub.dispatchEach mode clock n events).2.SameButLatencies
        (hub'.dispatchEach mode clock' n' events).2 ∧
      (hub.dispatchEach mode clock n events).1.map Dispatched.outcome =
        (hub'.dispatchEach mode clock' n' events).1.map Dispatched.outcome := by
  induction events generalizing hub hub' n n' with
  | nil => exact ⟨h, rfl⟩
  | cons e events ih =>
    obtain ⟨hfirst, houtcome⟩ := h.dispatch mode (clock n) (clock' n') e
    obtain ⟨hlast, houtcomes⟩ := ih hfirst (n + 1) (n' + 1)
    refine ⟨hlast, ?_⟩
    rw [dispatchEach_cons, dispatchEach_cons, List.map_cons, List.map_cons, houtcome, houtcomes]

end Hub.SameButLatencies

end DepthFeed

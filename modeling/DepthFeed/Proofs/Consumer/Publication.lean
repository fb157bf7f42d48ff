import DepthFeed.Consumer.Publisher
import DepthFeed.Proofs.Book.Replay
import DepthFeed.Proofs.Hub.History

/-!
# What a publisher shows

A publisher of an interval `k` shows the book as it was after the last `k`-th event that it accepted.
What it refuses in between makes no difference.

* `Book.following`: a new book after some events.
* `BookPublisher.after`: a new publisher after some events of its instrument, told by the events.
* `BookPublisher.attend_empty`: so it is after any events, of which it counts its own as accepted and
  the others as refused.
-/

namespace DepthFeed

/-- The events of one instrument. -/
def Instrument.own (instrument : Instrument) (events : List Event) : List Event :=
  events.filter fun e => e.instrument = instrument

/-- The events of other instruments. -/
def Instrument.foreign (instrument : Instrument) (events : List Event) : List Event :=
  events.filter fun e => e.instrument ≠ instrument

theorem Instrument.own_append_singleton (instrument : Instrument) (events : List Event)
    (e : Event) :
    instrument.own (events ++ [e]) =
      instrument.own events ++ if e.instrument = instrument then [e] else [] := by
  by_cases hown : e.instrument = instrument <;> simp [own, hown]

theorem Instrument.foreign_append_singleton (instrument : Instrument) (events : List Event)
    (e : Event) :
    instrument.foreign (events ++ [e]) =
      instrument.foreign events ++ if e.instrument ≠ instrument then [e] else [] := by
  by_cases hown : e.instrument = instrument <;> simp [foreign, hown]

/-- An interest in an instrument covers all events of it. -/
theorem Instrument.own_wanted {instrument : Instrument} {interest : Interest}
    (hcovers : interest.Covers instrument) (events : List Event) :
    instrument.own (interest.wanted events) = instrument.own events := by
  rw [own, Interest.wanted, List.filter_filter]
  refine List.filter_congr fun e _ => ?_
  by_cases hown : e.instrument = instrument
  · simp [hown, hcovers]
  · simp [hown]

/-- A new book after some events. -/
def Book.following (instrument : Instrument) (tradeRule : TradeRule) (events : List Event) : Book :=
  (Book.empty instrument tradeRule).run (events.map .event)

theorem Book.following_append_singleton (instrument : Instrument) (tradeRule : TradeRule)
    (events : List Event) (e : Event) :
    following instrument tradeRule (events ++ [e]) =
      (following instrument tradeRule events).take (.event e) := by
  rw [following, List.map_append, List.map_singleton, run_append_singleton, following]

theorem Book.instrument_following (instrument : Instrument) (tradeRule : TradeRule)
    (events : List Event) : (following instrument tradeRule events).instrument = instrument :=
  (run_keeps _ _).1

/-- The posts of a consumer are the same when it is one of a larger kind. -/
theorem Consumer.attend_inl {C D : Type} [Consumer C] [Consumer D] (consumer : C)
    (events : List Event) :
    attend (Sum.inl consumer : C ⊕ D) events =
      ((attend consumer events).1, .inl (attend consumer events).2) := by
  induction events using List.reverseRecOn with
  | nil => rfl
  | append_singleton events e ih =>
    rw [attend_append_singleton, attend_append_singleton, ih]
    rfl

namespace BookPublisher

variable {instrument : Instrument} {tradeRule : TradeRule} {depth : Nat} {interval : UInt64}

/-- How many of `n` events lie in whole rounds of `interval` events. -/
def wholeRounds (interval : UInt64) (n : Nat) : Nat := interval.toNat * (n / interval.toNat)

/-- The snapshot after the last whole round of `interval` events. -/
def shown (instrument : Instrument) (tradeRule : TradeRule) (depth : Nat) (interval : UInt64)
    (events : List Event) : Snapshot :=
  (Book.following instrument tradeRule (events.take (wholeRounds interval events.length))).snapshot
    depth

/-- A publisher that accepted some events and nothing else happened to. -/
def after (instrument : Instrument) (tradeRule : TradeRule) (depth : Nat) (interval : UInt64)
    (events : List Event) : BookPublisher where
  book := .following instrument tradeRule events
  depth := depth
  interval := interval
  sinceLast := .ofNat (events.length % interval.toNat)
  published := shown instrument tradeRule depth interval events

theorem after_nil (instrument : Instrument) (tradeRule : TradeRule) (depth : Nat)
    (interval : UInt64) :
    after instrument tradeRule depth interval [] = empty instrument tradeRule depth interval := by
  simp only [after, shown, List.take_nil, List.length_nil, Nat.zero_mod]
  rfl

/-! ## Rounds -/

theorem wholeRounds_le (interval : UInt64) (n : Nat) : wholeRounds interval n ≤ n :=
  Nat.mul_div_le n interval.toNat

/-- An event that does not end a round is one more in it. -/
theorem wholeRounds_succ_of_lt {n : Nat} (h : n % interval.toNat + 1 < interval.toNat) :
    wholeRounds interval (n + 1) = wholeRounds interval n ∧
      (n + 1) % interval.toNat = n % interval.toNat + 1 := by
  have hpos : 0 < interval.toNat := by omega
  have hsplit : n % interval.toNat + 1 + interval.toNat * (n / interval.toNat) = n + 1 := by
    have hn := Nat.mod_add_div n interval.toNat
    omega
  obtain ⟨hdiv, hmod⟩ := (Nat.div_mod_unique hpos).2 ⟨hsplit, h⟩
  exact ⟨congrArg (interval.toNat * ·) hdiv, hmod⟩

/-- An event that ends a round is part of the whole rounds, and none is left over. -/
theorem wholeRounds_succ_of_eq {n : Nat} (h : n % interval.toNat + 1 = interval.toNat) :
    wholeRounds interval (n + 1) = n + 1 ∧ (n + 1) % interval.toNat = 0 := by
  have hdvd : interval.toNat ∣ n + 1 := by
    refine ⟨n / interval.toNat + 1, ?_⟩
    have hn := Nat.mod_add_div n interval.toNat
    rw [Nat.mul_add, Nat.mul_one]
    omega
  exact ⟨Nat.mul_div_cancel' hdvd, Nat.mod_eq_zero_of_dvd hdvd⟩

/-! ## Events -/

theorem post_of_ok {c c' : BookPublisher} {e : Event} (h : c.accept e = .ok c') :
    (Consumer.post c e).consumer = c' ∧ (Consumer.post c e).verdict = .accepted := by
  simp [Consumer.post, h]

theorem post_of_error {c : BookPublisher} {e : Event} {error : Rejection}
    (h : c.accept e = .error error) :
    (Consumer.post c e).consumer = c ∧ (Consumer.post c e).verdict = .rejected error := by
  simp [Consumer.post, h]

theorem accept_of_own {c : BookPublisher} {events : List Event}
    (hbook : c.book = .following instrument tradeRule events) {e : Event}
    (hown : e.instrument = instrument) :
    c.accept e =
      .ok { c with book := .following instrument tradeRule (events ++ [e]) }.countAccepted := by
  have hfor : e.instrument = (Book.following instrument tradeRule events).instrument := by
    rw [Book.instrument_following, hown]
  rw [accept, hbook, Book.following_append_singleton, Book.take_event hfor, Book.apply,
    if_pos hfor]

theorem accept_of_foreign {c : BookPublisher} {events : List Event}
    (hbook : c.book = .following instrument tradeRule events) {e : Event}
    (hforeign : e.instrument ≠ instrument) :
    c.accept e = .error (.refused (.otherInstrument instrument e.instrument)) := by
  rw [accept, Book.apply, hbook, Book.instrument_following, if_neg hforeign]

theorem sinceLast_add_one {c : BookPublisher} {n : Nat} (hsince : c.sinceLast = .ofNat n) :
    c.sinceLast + 1 = .ofNat (n + 1) := by
  rw [hsince]
  exact (UInt64.ofNat_add n 1).symm

/-- The accepted event that the interval says publishes the book. -/
theorem countAccepted_of_due {c : BookPublisher} {n : Nat} (hsince : c.sinceLast = .ofNat n)
    (hdue : n + 1 = c.interval.toNat) : c.countAccepted = c.publish := by
  have hall : UInt64.ofNat (n + 1) = c.interval := by rw [hdue, UInt64.ofNat_toNat]
  have hpos : 0 < c.interval := UInt64.lt_iff_toNat_lt.2 (hdue ▸ Nat.succ_pos n)
  simp only [countAccepted, sinceLast_add_one hsince, hall]
  exact if_pos ⟨hpos, UInt64.le_refl _⟩

/-- Any earlier one is counted, as is every one if the interval is zero. -/
theorem countAccepted_of_not_due {c : BookPublisher} {n : Nat} (hsince : c.sinceLast = .ofNat n)
    (hearly : 0 < c.interval → n + 1 < c.interval.toNat) :
    c.countAccepted = { c with sinceLast := .ofNat (n + 1) } := by
  simp only [countAccepted, sinceLast_add_one hsince]
  refine if_neg ?_
  rintro ⟨hpos, hdue⟩
  have hlt := hearly hpos
  have hword : c.interval.toNat < 2 ^ 64 := c.interval.toNat_lt
  rw [UInt64.le_iff_toNat_le, UInt64.toNat_ofNat_of_lt' (show _ < 2 ^ 64 by omega)] at hdue
  omega

/-- One more accepted event, and its book published if it ends a round. -/
theorem countAccepted_after (events : List Event) (e : Event) (hinterval : 0 < interval) :
    { after instrument tradeRule depth interval events with
        book := .following instrument tradeRule (events ++ [e]) }.countAccepted =
      after instrument tradeRule depth interval (events ++ [e]) := by
  have hpos : 0 < interval.toNat := UInt64.lt_iff_toNat_lt.1 hinterval
  have hlt : events.length % interval.toNat < interval.toNat := Nat.mod_lt _ hpos
  have hlength : (events ++ [e]).length = events.length + 1 := List.length_append
  by_cases hround : events.length % interval.toNat + 1 = interval.toNat
  · obtain ⟨hwhole, hrest⟩ := wholeRounds_succ_of_eq hround
    have hall : (events ++ [e]).take (events.length + 1) = events ++ [e] :=
      List.take_of_length_le hlength.le
    rw [countAccepted_of_due rfl hround]
    simp only [after, publish, shown, hlength, hwhole, hrest, hall]
    rfl
  · have hshort : events.length % interval.toNat + 1 < interval.toNat := by omega
    obtain ⟨hwhole, hrest⟩ := wholeRounds_succ_of_lt hshort
    rw [countAccepted_of_not_due rfl fun _ => hshort]
    simp only [after, shown, hlength, hwhole, hrest,
      List.take_append_of_le_length (wholeRounds_le _ _)]

theorem accept_own (events : List Event) {e : Event} (hown : e.instrument = instrument)
    (hinterval : 0 < interval) :
    (after instrument tradeRule depth interval events).accept e =
      .ok (after instrument tradeRule depth interval (events ++ [e])) := by
  rw [accept_of_own rfl hown, countAccepted_after events e hinterval]

theorem post_own (tradeRule : TradeRule) (depth : Nat) (hinterval : 0 < interval)
    (events : List Event) {e : Event} (hown : e.instrument = instrument) :
    (Consumer.post (after instrument tradeRule depth interval events) e).consumer =
        after instrument tradeRule depth interval (events ++ [e]) ∧
      (Consumer.post (after instrument tradeRule depth interval events) e).verdict = .accepted :=
  post_of_ok (accept_own events hown hinterval)

theorem post_foreign (tradeRule : TradeRule) (depth : Nat) (interval : UInt64)
    (events : List Event) {e : Event} (hforeign : e.instrument ≠ instrument) :
    (Consumer.post (after instrument tradeRule depth interval events) e).consumer =
        after instrument tradeRule depth interval events ∧
      (Consumer.post (after instrument tradeRule depth interval events) e).verdict =
        .rejected (.refused (.otherInstrument instrument e.instrument)) :=
  post_of_error (accept_of_foreign rfl hforeign)

/-- A publisher is given some events: those of its instrument move it on and are counted as
accepted, the others are counted as refused and change nothing. -/
theorem attend_empty (instrument : Instrument) (tradeRule : TradeRule) (depth : Nat)
    (hinterval : 0 < interval) (events : List Event) :
    (Consumer.attend (empty instrument tradeRule depth interval) events).2 =
        after instrument tradeRule depth interval (instrument.own events) ∧
      Tally.of (Consumer.attend (empty instrument tradeRule depth interval) events).1 =
        ⟨.ofNat (instrument.own events).length, .ofNat (instrument.foreign events).length, 0⟩ := by
  induction events using List.reverseRecOn with
  | nil => exact ⟨(after_nil instrument tradeRule depth interval).symm, rfl⟩
  | append_singleton events e ih =>
    obtain ⟨hconsumer, htally⟩ := ih
    rw [Consumer.attend_append_singleton, Tally.of_append_singleton, hconsumer, htally]
    by_cases hown : e.instrument = instrument
    · obtain ⟨hnext, hverdict⟩ :=
        post_own tradeRule depth hinterval (instrument.own events) hown
      rw [hverdict, hnext, instrument.own_append_singleton, instrument.foreign_append_singleton,
        if_pos hown, if_neg (not_not_intro hown), List.append_nil, List.length_append,
        UInt64.ofNat_add]
      exact ⟨rfl, rfl⟩
    · obtain ⟨hnext, hverdict⟩ :=
        post_foreign tradeRule depth interval (instrument.own events) hown
      rw [hverdict, hnext, instrument.own_append_singleton, instrument.foreign_append_singleton,
        if_neg hown, if_pos hown, List.append_nil, List.length_append, UInt64.ofNat_add]
      exact ⟨rfl, rfl⟩

end BookPublisher

end DepthFeed

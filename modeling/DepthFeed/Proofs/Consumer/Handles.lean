import DepthFeed.Consumer.Handle
import DepthFeed.Proofs.Consumer.Publication

/-!
# What a handle shows

A publisher is given events and is told to publish, in any order. It publishes when it is told to,
and when it accepts as many events as its interval says since it last published. At any time its
handles show the book as it was then, whenever they were obtained and however often they were
copied, and whatever became of other publishers.

* `BookPublisher.Plan`: what a publisher is made for, and `Plan.run`, the publisher after some
  requests.
* `BookPublisher.Plan.split`: some requests up to the latest publication, and those since.
* `BookPublisher.Plan.Shows`: what is promised of a publisher after some requests.
* `PublisherStore.Session`: publishers with the handles that were obtained from them.
* `PublisherStore.Session.run_tells`: what the publishers and the handles show after a run.
-/

namespace DepthFeed

namespace BookPublisher

/-! ## Requests -/

/-- What a publisher is asked for. -/
inductive Request where
  | post (e : Event)
  | publish
deriving DecidableEq, Repr

def perform (c : BookPublisher) : Request → BookPublisher
  | .post e => (Consumer.post c e).consumer
  | .publish => c.publish

/-- What a publisher is made for. -/
structure Plan where
  instrument : Instrument
  tradeRule : TradeRule
  depth : Nat
  interval : UInt64
deriving DecidableEq, Repr

namespace Plan

variable {plan : Plan}

def publisher (plan : Plan) : BookPublisher :=
  .empty plan.instrument plan.tradeRule plan.depth plan.interval

/-- The publisher after some requests. -/
def run (plan : Plan) (requests : List Request) : BookPublisher :=
  requests.foldl perform plan.publisher

theorem run_append_singleton (plan : Plan) (requests : List Request) (request : Request) :
    plan.run (requests ++ [request]) = (plan.run requests).perform request := by
  rw [run, List.foldl_append, List.foldl_cons, List.foldl_nil, run]

/-- The events of the instrument among some requests. -/
def events (plan : Plan) (requests : List Request) : List Event :=
  requests.filterMap fun
    | .post e => if e.instrument = plan.instrument then some e else none
    | .publish => none

theorem events_append_post_own (plan : Plan) (requests : List Request) {e : Event}
    (hown : e.instrument = plan.instrument) :
    plan.events (requests ++ [.post e]) = plan.events requests ++ [e] := by
  simp [events, hown]

theorem events_append_post_foreign (plan : Plan) (requests : List Request) {e : Event}
    (hforeign : e.instrument ≠ plan.instrument) :
    plan.events (requests ++ [.post e]) = plan.events requests := by
  simp [events, hforeign]

theorem events_append_publish (plan : Plan) (requests : List Request) :
    plan.events (requests ++ [.publish]) = plan.events requests := by
  simp [events]

/-! ## Publications -/

/-- Whether a request publishes, after some requests that did not. -/
def Publishes (plan : Plan) (since : List Request) : Request → Prop
  | .post e =>
    e.instrument = plan.instrument ∧ (plan.events since).length + 1 = plan.interval.toNat
  | .publish => True

instance (plan : Plan) (since : List Request) : DecidablePred (plan.Publishes since)
  | .post _ => inferInstanceAs (Decidable (_ ∧ _))
  | .publish => inferInstanceAs (Decidable True)

/-- Some requests up to the latest publication, and those since. A publisher that is made publishes
its empty book, which is before all requests. -/
structure Split where
  upTo : List Request
  since : List Request
deriving DecidableEq, Repr

def extend (plan : Plan) (split : Split) (request : Request) : Split :=
  if plan.Publishes split.since request then ⟨split.upTo ++ split.since ++ [request], []⟩
  else ⟨split.upTo, split.since ++ [request]⟩

def split (plan : Plan) (requests : List Request) : Split := requests.foldl plan.extend ⟨[], []⟩

theorem split_append_singleton (plan : Plan) (requests : List Request) (request : Request) :
    plan.split (requests ++ [request]) = plan.extend (plan.split requests) request := by
  rw [split, List.foldl_append, List.foldl_cons, List.foldl_nil, split]

theorem upTo_append_since (plan : Plan) (requests : List Request) :
    (plan.split requests).upTo ++ (plan.split requests).since = requests := by
  induction requests using List.reverseRecOn with
  | nil => rfl
  | append_singleton requests request ih =>
    rw [split_append_singleton, extend]
    split_ifs
    · rw [List.append_nil, ih]
    · rw [← List.append_assoc, ih]

theorem split_of_publishes {requests : List Request} {request : Request}
    (h : plan.Publishes (plan.split requests).since request) :
    plan.split (requests ++ [request]) = ⟨requests ++ [request], []⟩ := by
  rw [split_append_singleton, extend, if_pos h, upTo_append_since]

theorem split_of_not_publishes {requests : List Request} {request : Request}
    (h : ¬ plan.Publishes (plan.split requests).since request) :
    plan.split (requests ++ [request]) =
      ⟨(plan.split requests).upTo, (plan.split requests).since ++ [request]⟩ := by
  rw [split_append_singleton, extend, if_neg h]

/-- Fewer events are accepted since the latest publication than the interval says. -/
theorem length_events_since_lt (plan : Plan) (hinterval : 0 < plan.interval)
    (requests : List Request) :
    (plan.events (plan.split requests).since).length < plan.interval.toNat := by
  have hpos : 0 < plan.interval.toNat := UInt64.lt_iff_toNat_lt.1 hinterval
  induction requests using List.reverseRecOn with
  | nil => exact hpos
  | append_singleton requests request ih =>
    by_cases h : plan.Publishes (plan.split requests).since request
    · rw [split_of_publishes h]
      exact hpos
    · rw [split_of_not_publishes h]
      cases request with
      | publish => exact absurd trivial h
      | post e =>
        by_cases hown : e.instrument = plan.instrument
        · have hround : (plan.events (plan.split requests).since).length + 1 ≠
              plan.interval.toNat := fun hround => h ⟨hown, hround⟩
          rw [events_append_post_own _ _ hown, List.length_append, List.length_singleton]
          omega
        · rw [events_append_post_foreign _ _ hown]
          exact ih

/-! ## The publisher after some requests -/

/-- The snapshot of the latest publication. -/
def shown (plan : Plan) (requests : List Request) : Snapshot :=
  (plan.run (plan.split requests).upTo).book.snapshot plan.depth

/-- A publisher that is as its plan and some requests say. -/
structure Follows (plan : Plan) (requests : List Request) (c : BookPublisher) : Prop where
  book_eq : c.book = .following plan.instrument plan.tradeRule (plan.events requests)
  depth_eq : c.depth = plan.depth
  interval_eq : c.interval = plan.interval
  sinceLast_eq : c.sinceLast = .ofNat (plan.events (plan.split requests).since).length
  published_eq : c.published = plan.shown requests

namespace Follows

variable {requests : List Request} {c : BookPublisher}

theorem nil (plan : Plan) : plan.Follows [] (plan.run []) where
  book_eq := rfl
  depth_eq := rfl
  interval_eq := rfl
  sinceLast_eq := rfl
  published_eq := rfl

/-- A request that publishes the book it leaves behind. -/
theorem of_publishes {request : Request}
    (h : plan.Publishes (plan.split requests).since request)
    (hrun : plan.run (requests ++ [request]) = c.publish)
    (hbook : c.book =
      .following plan.instrument plan.tradeRule (plan.events (requests ++ [request])))
    (hdepth : c.depth = plan.depth) (hinterval : c.interval = plan.interval) :
    plan.Follows (requests ++ [request]) (plan.run (requests ++ [request])) := by
  have hsplit := split_of_publishes h
  constructor
  case book_eq => rw [hrun]; exact hbook
  case depth_eq => rw [hrun]; exact hdepth
  case interval_eq => rw [hrun]; exact hinterval
  case sinceLast_eq => rw [hrun, hsplit]; rfl
  case published_eq => rw [shown, hsplit, hrun, ← hdepth]; rfl

/-- Any other request leaves the snapshot alone. -/
theorem of_not_publishes {request : Request}
    (h : ¬ plan.Publishes (plan.split requests).since request)
    (hrun : plan.run (requests ++ [request]) = c)
    (hbook : c.book =
      .following plan.instrument plan.tradeRule (plan.events (requests ++ [request])))
    (hdepth : c.depth = plan.depth) (hinterval : c.interval = plan.interval)
    (hsince : c.sinceLast =
      .ofNat (plan.events ((plan.split requests).since ++ [request])).length)
    (hpublished : c.published = plan.shown requests) :
    plan.Follows (requests ++ [request]) (plan.run (requests ++ [request])) := by
  have hsplit := split_of_not_publishes h
  constructor
  case book_eq => rw [hrun, hbook]
  case depth_eq => rw [hrun, hdepth]
  case interval_eq => rw [hrun, hinterval]
  case sinceLast_eq => rw [hrun, hsince, hsplit]
  case published_eq => rw [hrun, hpublished, shown, shown, hsplit]

theorem publish (h : plan.Follows requests (plan.run requests)) :
    plan.Follows (requests ++ [.publish]) (plan.run (requests ++ [.publish])) := by
  refine of_publishes trivial (plan.run_append_singleton requests .publish) ?_ h.depth_eq
    h.interval_eq
  rw [h.book_eq, events_append_publish]

theorem post_foreign (h : plan.Follows requests (plan.run requests)) {e : Event}
    (hforeign : e.instrument ≠ plan.instrument) :
    plan.Follows (requests ++ [.post e]) (plan.run (requests ++ [.post e])) := by
  have hrun : plan.run (requests ++ [.post e]) = plan.run requests :=
    (plan.run_append_singleton requests _).trans
      (post_of_error (accept_of_foreign h.book_eq hforeign)).1
  refine of_not_publishes (fun hpublishes => hforeign hpublishes.1) hrun ?_ h.depth_eq
    h.interval_eq ?_ h.published_eq
  · rw [h.book_eq, events_append_post_foreign _ _ hforeign]
  · rw [h.sinceLast_eq, events_append_post_foreign _ _ hforeign]

/-- An accepted event publishes if the plan says so, and is counted otherwise. -/
theorem post_own (h : plan.Follows requests (plan.run requests)) {e : Event}
    (hown : e.instrument = plan.instrument) :
    plan.Follows (requests ++ [.post e]) (plan.run (requests ++ [.post e])) := by
  have hbook : Book.following plan.instrument plan.tradeRule (plan.events requests ++ [e]) =
      .following plan.instrument plan.tradeRule (plan.events (requests ++ [.post e])) := by
    rw [events_append_post_own _ _ hown]
  have hrun := (plan.run_append_singleton requests (.post e)).trans
    (post_of_ok (accept_of_own h.book_eq hown)).1
  by_cases hround :
      (plan.events (plan.split requests).since).length + 1 = plan.interval.toNat
  · have hdue : (plan.events (plan.split requests).since).length + 1 =
        (plan.run requests).interval.toNat := by rw [hround, h.interval_eq]
    exact of_publishes ⟨hown, hround⟩ (hrun.trans (countAccepted_of_due h.sinceLast_eq hdue)) hbook
      h.depth_eq h.interval_eq
  · have hearly : 0 < (plan.run requests).interval →
        (plan.events (plan.split requests).since).length + 1 <
          (plan.run requests).interval.toNat := by
      rw [h.interval_eq]
      intro hinterval
      have hlt := plan.length_events_since_lt hinterval requests
      omega
    refine of_not_publishes (fun hpublishes => hround hpublishes.2)
      (hrun.trans (countAccepted_of_not_due h.sinceLast_eq hearly)) hbook h.depth_eq
      h.interval_eq ?_ h.published_eq
    rw [events_append_post_own _ _ hown, List.length_append, List.length_singleton]

/-- A publisher follows its plan from one request to the next. -/
theorem run (plan : Plan) (requests : List Request) : plan.Follows requests (plan.run requests) := by
  induction requests using List.reverseRecOn with
  | nil => exact nil plan
  | append_singleton requests request ih =>
    cases request with
    | publish => exact ih.publish
    | post e =>
      by_cases hown : e.instrument = plan.instrument
      · exact ih.post_own hown
      · exact ih.post_foreign hown

end Follows

/-! ## What a publisher shows -/

/-- What is promised of a publisher after some requests. -/
structure Shows (plan : Plan) (requests : List Request) (c : BookPublisher) : Prop where
  /-- The book follows the accepted events, in their order. -/
  book_eq : c.book = .following plan.instrument plan.tradeRule (plan.events requests)
  /-- The published snapshot is that of the book at the latest publication. -/
  published_eq : c.published = plan.shown requests
  /-- Fewer events than the interval says were accepted since then, and they are counted. -/
  sinceLast_eq : 0 < plan.interval →
    c.sinceLast.toNat = (plan.events (plan.split requests).since).length ∧
      c.sinceLast < plan.interval
  /-- Without an interval an event never publishes. -/
  onDemand : plan.interval = 0 → ∀ e, (Consumer.post c e).consumer.published = c.published
  own (e : Event) : e.instrument = plan.instrument → (Consumer.post c e).verdict = .accepted
  /-- An event of another instrument is refused and changes nothing: neither the book nor the
  snapshot nor the count. -/
  foreign (e : Event) : e.instrument ≠ plan.instrument →
    (Consumer.post c e).verdict =
        .rejected (.refused (.otherInstrument plan.instrument e.instrument)) ∧
      (Consumer.post c e).consumer = c

theorem shows_run (plan : Plan) (requests : List Request) :
    plan.Shows requests (plan.run requests) := by
  have h := Follows.run plan requests
  constructor
  case book_eq => exact h.book_eq
  case published_eq => exact h.published_eq
  case sinceLast_eq =>
    intro hinterval
    have hlt := plan.length_events_since_lt hinterval requests
    have hword : plan.interval.toNat < 2 ^ 64 := plan.interval.toNat_lt
    have hcount : (plan.run requests).sinceLast.toNat =
        (plan.events (plan.split requests).since).length := by
      rw [h.sinceLast_eq]
      exact UInt64.toNat_ofNat_of_lt' (show _ < 2 ^ 64 by omega)
    exact ⟨hcount, UInt64.lt_iff_toNat_lt.2 (hcount ▸ hlt)⟩
  case onDemand =>
    intro hinterval e
    by_cases hown : e.instrument = plan.instrument
    · have hzero : ¬ 0 < (plan.run requests).interval := by
        rw [h.interval_eq, hinterval]
        exact UInt64.lt_irrefl 0
      have hpost := (post_of_ok (accept_of_own h.book_eq hown)).1.trans
        (countAccepted_of_not_due h.sinceLast_eq fun hpos => absurd hpos hzero)
      rw [hpost]
    · rw [(post_of_error (accept_of_foreign h.book_eq hown)).1]
  case own => exact fun e hown => (post_of_ok (accept_of_own h.book_eq hown)).2
  case foreign => exact fun e hforeign =>
    (post_of_error (accept_of_foreign h.book_eq hforeign)).symm

end Plan

end BookPublisher

namespace PublisherStore

open BookPublisher (Request Plan)

variable {plans : List Plan}

/-- A publisher is asked for something. -/
def ask (m : PublisherStore) (publisher : Nat) : Request → PublisherStore
  | .post e => m.post publisher e
  | .publish => m.publish publisher

theorem publishers_ask (m : PublisherStore) (publisher : Nat) (request : Request) :
    (m.ask publisher request).publishers =
      m.publishers.modify publisher fun c => c.perform request := by
  cases request <;> rfl

/-- An event that leaves its publisher alone leaves the store alone. -/
theorem post_eq_self {m : PublisherStore} {publisher : Nat} {c : BookPublisher} {e : Event}
    (hc : m.publishers[publisher]? = some c) (hpost : (Consumer.post c e).consumer = c) :
    m.post publisher e = m := by
  refine congrArg PublisherStore.mk (Array.ext_getElem? fun i => ?_)
  rw [Array.getElem?_modify]
  split_ifs with hi
  · rw [← hi, hc, Option.map_some, hpost]
  · rfl

/-- A store with a publisher for each plan. -/
def ofPlans (plans : List Plan) : PublisherStore :=
  plans.foldl (fun m plan => m.add plan.publisher) .empty

theorem publishers_ofPlans (plans : List Plan) :
    (ofPlans plans).publishers = (plans.map Plan.publisher).toArray := by
  induction plans using List.reverseRecOn with
  | nil => rfl
  | append_singleton plans plan ih =>
    rw [ofPlans, List.foldl_append, List.foldl_cons, List.foldl_nil, ← ofPlans, add, ih]
    simp

/-! ## Sessions -/

/-- A store with the handles that were obtained from it so far. -/
structure Session where
  store : PublisherStore
  handles : List SnapshotHandle

namespace Session

/-- An operation names a handle by how many were obtained before it. -/
inductive Operation where
  | ask (publisher : Nat) (request : Request)
  /-- One more handle of a publisher. -/
  | hold (publisher : Nat)
  /-- One more handle where there is one. -/
  | copy (handle : Nat)
deriving DecidableEq, Repr

/-- The session after an operation; naming what there is not does nothing. -/
def perform (s : Session) : Operation → Session
  | .ask publisher request => { s with store := s.store.ask publisher request }
  | .hold publisher => { s with handles := s.handles ++ (s.store.handle? publisher).toList }
  | .copy handle => { s with handles := s.handles ++ s.handles[handle]?.toList }

/-- A session of new publishers after some operations. -/
def run (plans : List Plan) (operations : List Operation) : Session :=
  operations.foldl perform ⟨ofPlans plans, []⟩

theorem run_append_singleton (plans : List Plan) (operations : List Operation)
    (operation : Operation) :
    run plans (operations ++ [operation]) = (run plans operations).perform operation := by
  rw [run, List.foldl_append, List.foldl_cons, List.foldl_nil, run]

/-- What an operation asks of a publisher. -/
def Operation.requestsOf (publisher : Nat) : Operation → List Request
  | .ask asked request => if asked = publisher then [request] else []
  | .hold _ => []
  | .copy _ => []

def requestsOf (publisher : Nat) (operations : List Operation) : List Request :=
  operations.flatMap (Operation.requestsOf publisher)

theorem requestsOf_append_singleton (publisher : Nat) (operations : List Operation)
    (operation : Operation) :
    requestsOf publisher (operations ++ [operation]) =
      requestsOf publisher operations ++ operation.requestsOf publisher := by
  rw [requestsOf, List.flatMap_append, List.flatMap_singleton, requestsOf]

/-- The publisher of which an operation obtains a handle, where those of the handles before it are
known. -/
def Operation.owner? (publishers : Nat) (owners : List Nat) : Operation → Option Nat
  | .ask _ _ => none
  | .hold publisher => if publisher < publishers then some publisher else none
  | .copy handle => owners[handle]?

/-- The publishers of the handles, in the order in which these are obtained. -/
def owners (publishers : Nat) (operations : List Operation) : List Nat :=
  operations.foldl
    (fun owners operation => owners ++ (operation.owner? publishers owners).toList) []

theorem owners_append_singleton (publishers : Nat) (operations : List Operation)
    (operation : Operation) :
    owners publishers (operations ++ [operation]) =
      owners publishers operations ++
        (operation.owner? publishers (owners publishers operations)).toList := by
  rw [owners, List.foldl_append, List.foldl_cons, List.foldl_nil, owners]

theorem owner_lt (publishers : Nat) (operations : List Operation) :
    ∀ i ∈ owners publishers operations, i < publishers := by
  induction operations using List.reverseRecOn with
  | nil => exact fun _ hmem => nomatch hmem
  | append_singleton operations operation ih =>
    intro i hmem
    rw [owners_append_singleton] at hmem
    rcases List.mem_append.1 hmem with hearlier | hnew
    · exact ih i hearlier
    · have howner := Option.mem_toList.1 hnew
      cases operation with
      | ask asked request => cases howner
      | hold publisher =>
        obtain ⟨hlt, rfl⟩ : publisher < publishers ∧ publisher = i := by
          simpa [Operation.owner?] using howner
        exact hlt
      | copy handle => exact ih i (List.mem_of_getElem? howner)

/-! ## Following the operations -/

/-- A session that is as its plans and some operations say. -/
structure Follows (plans : List Plan) (operations : List Operation) (s : Session) : Prop where
  publisher?_eq (i : Nat) : s.store.publishers[i]? =
    plans[i]?.map fun plan => plan.run (requestsOf i operations)
  handles_eq : s.handles = (owners plans.length operations).map SnapshotHandle.mk

namespace Follows

variable {operations : List Operation} {s : Session}

theorem nil (plans : List Plan) : Follows plans [] (Session.run plans []) where
  publisher?_eq i := by
    show (ofPlans plans).publishers[i]? = _
    rw [publishers_ofPlans, List.getElem?_toArray, List.getElem?_map]
    rfl
  handles_eq := rfl

theorem handle?_eq (h : Follows plans operations s) (i : Nat) :
    s.store.handle? i = (if i < plans.length then some i else none).map SnapshotHandle.mk := by
  have hsame : i < s.store.publishers.size ↔ i < plans.length := by
    rw [← Nat.not_le, ← Nat.not_le, ← Array.getElem?_eq_none_iff, ← List.getElem?_eq_none_iff,
      h.publisher?_eq, Option.map_eq_none_iff]
  rw [handle?]
  simp only [hsame]
  split_ifs <;> rfl

theorem ask (h : Follows plans operations s) (publisher : Nat) (request : Request) :
    Follows plans (operations ++ [.ask publisher request])
      (s.perform (.ask publisher request)) where
  publisher?_eq i := by
    show (s.store.ask publisher request).publishers[i]? = _
    rw [publishers_ask, Array.getElem?_modify, h.publisher?_eq, requestsOf_append_singleton]
    by_cases hi : publisher = i
    · simp [Operation.requestsOf, hi, Plan.run_append_singleton, Function.comp_def]
    · simp [Operation.requestsOf, hi]
  handles_eq := by
    show s.handles = _
    rw [h.handles_eq, owners_append_singleton]
    exact congrArg _ (List.append_nil _).symm

/-- A handle that is obtained leaves the publishers alone. -/
theorem addHandle (h : Follows plans operations s) {operation : Operation}
    (hquiet : ∀ i, operation.requestsOf i = []) {obtained : Option SnapshotHandle}
    (hobtained : obtained =
      (operation.owner? plans.length (owners plans.length operations)).map SnapshotHandle.mk) :
    Follows plans (operations ++ [operation])
      { s with handles := s.handles ++ obtained.toList } where
  publisher?_eq i := by
    rw [requestsOf_append_singleton, hquiet, List.append_nil]
    exact h.publisher?_eq i
  handles_eq := by
    rw [h.handles_eq, hobtained, owners_append_singleton, List.map_append, Option.toList_map]

/-- A session follows its operations from one to the next. -/
theorem perform (h : Follows plans operations s) (operation : Operation) :
    Follows plans (operations ++ [operation]) (s.perform operation) := by
  cases operation with
  | ask publisher request => exact h.ask publisher request
  | hold publisher => exact h.addHandle (fun _ => rfl) (h.handle?_eq publisher)
  | copy handle =>
    refine h.addHandle (fun _ => rfl) ?_
    rw [h.handles_eq, List.getElem?_map]
    rfl

theorem run (plans : List Plan) (operations : List Operation) :
    Follows plans operations (Session.run plans operations) := by
  induction operations using List.reverseRecOn with
  | nil => exact nil plans
  | append_singleton operations operation ih =>
    rw [run_append_singleton]
    exact ih.perform operation

end Follows

/-! ## What is shown -/

/-- What is promised of the publishers of some plans and of their handles after some operations. -/
structure Tells (plans : List Plan) (operations : List Operation) (s : Session) : Prop where
  /-- A publisher is as it would be alone. -/
  publisher {i : Nat} {plan : Plan} : plans[i]? = some plan →
    ∃ c, s.store.publishers[i]? = some c ∧ plan.Shows (requestsOf i operations) c
  length_handles : s.handles.length = (owners plans.length operations).length
  /-- Whenever a handle was obtained, it shows the latest publication of its publisher. -/
  handle {k i : Nat} : (owners plans.length operations)[k]? = some i →
    ∃ handle plan, s.handles[k]? = some handle ∧ plans[i]? = some plan ∧
      s.store.load? handle = some (plan.shown (requestsOf i operations))
  /-- An event of another instrument than that of its publisher changes nothing. -/
  foreign {i : Nat} {plan : Plan} {e : Event} : plans[i]? = some plan →
    e.instrument ≠ plan.instrument → s.perform (.ask i (.post e)) = s

/-- Whatever is asked of the publishers, and however their handles are passed on, each handle shows
the book of its publisher as it was at the latest publication. -/
theorem run_tells (plans : List Plan) (operations : List Operation) :
    Tells plans operations (run plans operations) := by
  have h := Follows.run plans operations
  constructor
  case publisher =>
    intro i plan hplan
    refine ⟨_, ?_, plan.shows_run (requestsOf i operations)⟩
    rw [h.publisher?_eq, hplan, Option.map_some]
  case length_handles => rw [h.handles_eq, List.length_map]
  case handle =>
    intro k i howner
    have hlt := owner_lt plans.length operations i (List.mem_of_getElem? howner)
    refine ⟨⟨i⟩, plans[i], ?_, List.getElem?_eq_getElem hlt, ?_⟩
    · rw [h.handles_eq, List.getElem?_map, howner, Option.map_some]
    · rw [load?, h.publisher?_eq, List.getElem?_eq_getElem hlt, Option.map_some, Option.map_some,
        (plans[i].shows_run _).published_eq]
  case foreign =>
    intro i plan e hplan hforeign
    have hc : (run plans operations).store.publishers[i]? =
        some (plan.run (requestsOf i operations)) := by
      rw [h.publisher?_eq, hplan, Option.map_some]
    have hkept := post_eq_self hc ((plan.shows_run _).foreign e hforeign).2
    exact congrArg (fun store => { run plans operations with store := store }) hkept

/-- One publisher that publishes at every second event and one that does not publish by itself. The
event of another instrument is not counted, and a publication on request starts the count again. -/
example :
    let event (instrument : Int32) (sequence : Int64) : Request :=
      .post ⟨sequence, 10, .buy, ⟨100⟩, ⟨1⟩, .update, ⟨instrument⟩, ⟨1⟩, none⟩
    let s := run [⟨⟨7⟩, .countOnly, 1, 2⟩, ⟨⟨8⟩, .countOnly, 1, 0⟩]
      [.hold 0, .ask 0 (event 7 1), .ask 0 .publish, .ask 0 (event 7 2), .ask 0 (event 8 3),
        .hold 1, .ask 1 (event 8 4), .copy 0, .ask 0 (event 7 5), .ask 0 (event 7 6), .copy 1]
    s.handles.map (fun handle => (s.store.load? handle).map Snapshot.sequence) =
      [some 5, some 0, some 5, some 0] := by
  decide +kernel

end Session

end PublisherStore

end DepthFeed

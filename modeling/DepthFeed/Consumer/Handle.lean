import DepthFeed.Consumer.Publisher

/-!
# Handles of published snapshots

What a publisher publishes is read through handles, which are copied and kept apart from it. A
`PublisherStore` keeps publishers, and a `SnapshotHandle` only says where one is. So all copies of a
handle show the same snapshot, which is the latest one.

* `PublisherStore.add`: one more publisher.
* `PublisherStore.post`, `PublisherStore.publish`: an event for a publisher, and a publication.
* `PublisherStore.handle?`, `PublisherStore.load?`: a handle of a publisher, and what it shows.
-/

namespace DepthFeed

/-- Where a publisher is kept. A copy of a handle says the same. -/
structure SnapshotHandle where
  place : Nat
deriving DecidableEq, Repr

structure PublisherStore where
  publishers : Array BookPublisher

namespace PublisherStore

def empty : PublisherStore := ⟨#[]⟩

def add (m : PublisherStore) (c : BookPublisher) : PublisherStore := ⟨m.publishers.push c⟩

def handle? (m : PublisherStore) (publisher : Nat) : Option SnapshotHandle :=
  if publisher < m.publishers.size then some ⟨publisher⟩ else none

/-- The store after an event for a publisher. -/
def post (m : PublisherStore) (publisher : Nat) (e : Event) : PublisherStore :=
  ⟨m.publishers.modify publisher fun c => (Consumer.post c e).consumer⟩

def publish (m : PublisherStore) (publisher : Nat) : PublisherStore :=
  ⟨m.publishers.modify publisher BookPublisher.publish⟩

def load? (m : PublisherStore) (handle : SnapshotHandle) : Option Snapshot :=
  m.publishers[handle.place]?.map BookPublisher.published

end PublisherStore

end DepthFeed

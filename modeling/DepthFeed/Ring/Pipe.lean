import DepthFeed.Ring.Basic

/-!
# Rings with their handles

A `Pipe` is a ring together with the handles on it: one reader, and writers in the order in which
they were handed out. A handle that was closed stays closed. When the last handle closes, the items
still in the ring are released.

* `push`, `write`: an item offered through a writer, refused through a closed one.
* `read`, `readMany`, `drain`, `discard`: items out, for the holder of the reader.
* `addWriter`, `closeWriter`, `closeReader`: handles come, where the ring takes several, and go.
* `writersGone`: no writer is open any longer.
-/

namespace DepthFeed

inductive WriterKind where
  | single
  /-- Any number of writers, which share their copy of the read index. -/
  | shared
deriving DecidableEq, Repr

/-- A ring and the handles on it. -/
structure Pipe (α : Type) where
  ring : Ring α
  kind : WriterKind
  /-- For each writer handed out, whether it is open. -/
  writers : List Bool
  readerOpen : Bool
deriving DecidableEq, Repr

inductive WriterGrant where
  | granted (index : Nat)
  | notShared
  | closed
deriving DecidableEq, Repr

namespace Pipe

variable {α : Type}

def ofCapacity (kind : WriterKind) (capacity : Nat) : Except RingError (Pipe α) := do
  let ring ← Ring.ofCapacity capacity
  return { ring := ring, kind := kind, writers := [true], readerOpen := true }

def hasWriter (p : Pipe α) (writer : Nat) : Bool := p.writers[writer]? = some true

def writersGone (p : Pipe α) : Bool := !p.writers.any id

/-! ## Items -/

/-- The answer of an operation on the ring, and the pipe after it. The pipe is taken apart first, so
that the operation is the only holder of the ring and changes it in place. -/
def onRing {β : Type} (p : Pipe α) (operation : Ring α → β × Ring α) : β × Pipe α :=
  match p with
  | ⟨ring, kind, writers, readerOpen⟩ =>
    let (answer, ring) := operation ring
    (answer, ⟨ring, kind, writers, readerOpen⟩)

theorem onRing_eq {β : Type} (p : Pipe α) (operation : Ring α → β × Ring α) :
    p.onRing operation = ((operation p.ring).1, { p with ring := (operation p.ring).2 }) := rfl

/-- One item offered through a writer: `none` through a closed one; else the item itself if there is
no room. -/
def push (p : Pipe α) (writer : Nat) (item : α) : Option (Option α) × Pipe α :=
  if p.hasWriter writer then
    let (back, p') := p.onRing fun ring => ring.push item
    (some back, p')
  else
    (none, p)

/-- Whether an item offered through a writer is taken; `none` through a closed one. -/
def write (p : Pipe α) (writer : Nat) (item : α) : Option Bool × Pipe α :=
  let (back, p') := p.push writer item
  (back.map Option.isNone, p')

/-- What becomes of each item offered through a writer, in order. -/
def writeAll (p : Pipe α) (writer : Nat) : List α → List (Option Bool) × Pipe α
  | [] => ([], p)
  | item :: items =>
    let (taken, p') := p.write writer item
    let (rest, last) := p'.writeAll writer items
    (taken :: rest, last)

def read (p : Pipe α) : Option α × Pipe α := p.onRing Ring.pop

def readMany (p : Pipe α) (n : Nat) : List α × Pipe α :=
  p.onRing fun ring => ring.readMany n

def drain (p : Pipe α) : List α × Pipe α := p.onRing Ring.drain

def discard (p : Pipe α) : Nat × Pipe α :=
  let (items, p') := p.drain
  (items.length, p')

/-! ## Handles -/

/-- The pipe without the items of its ring, if no handle is open. -/
def settle (p : Pipe α) : Pipe α :=
  if p.readerOpen || !p.writersGone then p else (p.onRing Ring.release).2

def addWriter (p : Pipe α) (writer : Nat) : WriterGrant × Pipe α :=
  if p.hasWriter writer then
    match p.kind with
    | .single => (.notShared, p)
    | .shared => (.granted p.writers.length, { p with writers := p.writers ++ [true] })
  else
    (.closed, p)

def closeWriter (p : Pipe α) (writer : Nat) : Bool × Pipe α :=
  if p.hasWriter writer then
    (true, { p with writers := p.writers.set writer false }.settle)
  else
    (false, p)

def closeReader (p : Pipe α) : Bool × Pipe α :=
  if p.readerOpen then (true, { p with readerOpen := false }.settle) else (false, p)

/-! ## Description -/

def writerLabel (p : Pipe α) : String :=
  match p.kind with
  | .single => "RingWriter"
  | .shared => "SharedRingWriter"

def readerLabel : String := "RingReader"

def describe (p : Pipe α) (label : String) : String :=
  label ++ " \x7b capacity: " ++ toString p.ring.capacity ++ ", len: " ++ toString p.ring.size ++
    " \x7d"

end Pipe

end DepthFeed

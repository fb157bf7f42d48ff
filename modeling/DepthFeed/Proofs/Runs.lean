/-!
# Runs of state machines

A machine answers each operation and moves on to its next state. `runWith` performs a list of
operations one after the other.

* `runWith_append`: a run of two lists is a run of the one and then of the other.
* `runWith_simulation`: two machines whose states stay related answer alike.
-/

namespace DepthFeed

variable {S T O A : Type}

/-- The answers to a list of operations, and the state after them. -/
def runWith (perform : S → O → A × S) (s : S) : List O → List A × S
  | [] => ([], s)
  | operation :: operations =>
    let (answer, next) := perform s operation
    let (answers, last) := runWith perform next operations
    (answer :: answers, last)

variable {perform : S → O → A × S}

@[simp]
theorem runWith_nil (s : S) : runWith perform s [] = ([], s) := rfl

@[simp]
theorem runWith_cons (s : S) (operation : O) (operations : List O) :
    runWith perform s (operation :: operations) =
      ((perform s operation).1 :: (runWith perform (perform s operation).2 operations).1,
        (runWith perform (perform s operation).2 operations).2) := rfl

theorem runWith_append (s : S) (earlier later : List O) :
    runWith perform s (earlier ++ later) =
      ((runWith perform s earlier).1 ++ (runWith perform (runWith perform s earlier).2 later).1,
        (runWith perform (runWith perform s earlier).2 later).2) := by
  induction earlier generalizing s with
  | nil => rfl
  | cons operation operations ih => simp [ih]

@[simp]
theorem length_runWith (s : S) (operations : List O) :
    (runWith perform s operations).1.length = operations.length := by
  induction operations generalizing s with
  | nil => rfl
  | cons operation operations ih => simp [ih]

/-- Two machines answer alike if their states are related at first, and every operation gives the
same answer in related states and leaves them related. -/
theorem runWith_simulation {perform' : T → O → A × T} {R : S → T → Prop}
    (hstep : ∀ s t operation, R s t →
      (perform s operation).1 = (perform' t operation).1 ∧
        R (perform s operation).2 (perform' t operation).2)
    {s : S} {t : T} (h : R s t) (operations : List O) :
    (runWith perform s operations).1 = (runWith perform' t operations).1 ∧
      R (runWith perform s operations).2 (runWith perform' t operations).2 := by
  induction operations generalizing s t with
  | nil => exact ⟨rfl, h⟩
  | cons operation operations ih =>
    obtain ⟨hanswer, hnext⟩ := hstep s t operation h
    obtain ⟨hanswers, hlast⟩ := ih hnext
    rw [runWith_cons, runWith_cons, hanswer, hanswers]
    exact ⟨rfl, hlast⟩

end DepthFeed

import Mathlib.Algebra.Ring.Int.Defs
import Mathlib.Algebra.Ring.Nat
import Mathlib.Data.List.Induction
import DepthFeed.Sequence.Monitor

/-!
# The gaps of a history

What was observed, forgotten and reset, told without a monitor. A history is a list of operations;
from it alone one reads the last number of each stream and the gaps that were opened.

* `SequenceMonitor.lastOn`: the last number of a stream, which no other stream has a part in.
* `SequenceMonitor.openedBy`: the gap that one more operation opens.
* `SequenceMonitor.gapsSinceReset`: the gaps that were opened since everything was reset.
* `SequenceMonitor.gapsSinceReset_append_singleton`: what one more operation adds to them.
* `SequenceMonitor.Fits`: there are words for the gaps at all times.
-/

namespace DepthFeed

/-- The distance that a gap skips, counted from the expected number up to `2 ^ 63 - 1`. -/
def Gap.distance (g : Gap) : Nat :=
  (min (max (g.received.toInt - g.expected.toInt) 0) (2 ^ 63 - 1)).toNat

theorem Gap.toNat_missing (g : Gap) : g.missing.toNat = g.distance := by
  have hbound : min (g.received.toInt - g.expected.toInt).toNat 0x7FFF_FFFF_FFFF_FFFF < 2 ^ 64 := by
    omega
  rw [missing, UInt64.toNat_ofNat_of_lt' hbound, distance]
  omega

namespace SequenceMonitor

inductive Operation where
  | observe (stream : StreamId) (sequence : Int64)
  | forget (stream : StreamId)
  | reset
deriving DecidableEq, Repr

namespace Operation

/-- Whether an operation has a part in what is expected of a stream. -/
def Concerns (stream : StreamId) : Operation → Prop
  | observe other _ => other = stream
  | forget other => other = stream
  | reset => True

instance (stream : StreamId) (operation : Operation) : Decidable (operation.Concerns stream) := by
  cases operation <;> unfold Concerns <;> infer_instance

def number? : Operation → Option Int64
  | observe _ sequence => some sequence
  | _ => none

end Operation

/-! ## Numbers -/

def concerning (stream : StreamId) (history : List Operation) : List Operation :=
  history.filter fun operation => operation.Concerns stream

/-- The last number of a stream, if the stream was not forgotten since. -/
def lastOn (stream : StreamId) (history : List Operation) : Option Int64 :=
  (concerning stream history).getLast?.bind Operation.number?

@[simp]
theorem lastOn_nil (stream : StreamId) : lastOn stream [] = none := rfl

theorem lastOn_append_singleton (stream : StreamId) (history : List Operation)
    (last : Operation) :
    lastOn stream (history ++ [last]) =
      if last.Concerns stream then last.number? else lastOn stream history := by
  unfold lastOn concerning
  rw [List.filter_append]
  by_cases hconcerns : last.Concerns stream
  · rw [if_pos hconcerns, List.filter_cons_of_pos (by simpa using hconcerns), List.filter_nil,
      List.getLast?_concat, Option.bind_some]
  · rw [if_neg hconcerns, List.filter_cons_of_neg (by simpa using hconcerns), List.filter_nil,
      List.append_nil]

/-! ## Gaps -/

/-- The gap that an operation opens: a number is expected to follow the last one of its stream, and
the first one is taken as it comes. -/
def openedBy (earlier : List Operation) : Operation → Option Gap
  | .observe stream sequence =>
    (lastOn stream earlier).bind fun previous =>
      if sequence = previous + 1 then none
      else some { stream := stream, expected := previous + 1, received := sequence }
  | _ => none

/-- What each of some operations opens, where others came earlier. -/
def openedAfter (earlier : List Operation) : List Operation → List (Option Gap)
  | [] => []
  | operation :: later =>
    openedBy earlier operation :: openedAfter (earlier ++ [operation]) later

theorem openedAfter_append_singleton (earlier later : List Operation) (last : Operation) :
    openedAfter earlier (later ++ [last]) =
      openedAfter earlier later ++ [openedBy (earlier ++ later) last] := by
  induction later generalizing earlier with
  | nil => simp [openedAfter]
  | cons operation later ih => simp [openedAfter, ih]

@[simp]
theorem length_openedAfter (earlier later : List Operation) :
    (openedAfter earlier later).length = later.length := by
  induction later generalizing earlier with
  | nil => rfl
  | cons operation later ih => simp [openedAfter, ih]

/-- The operations after the last reset. -/
def sinceReset (history : List Operation) : List Operation :=
  (history.reverse.takeWhile fun operation => operation ≠ .reset).reverse

theorem sinceReset_append_singleton (history : List Operation) (last : Operation) :
    sinceReset (history ++ [last]) = if last = .reset then [] else sinceReset history ++ [last] := by
  unfold sinceReset
  rw [List.reverse_append, List.reverse_singleton, List.singleton_append]
  split
  · rename_i hreset
    rw [List.takeWhile_cons_of_neg (by simpa using hreset), List.reverse_nil]
  · rename_i hreset
    rw [List.takeWhile_cons_of_pos (by simpa using hreset), List.reverse_cons]

/-- The gaps that were opened since the last reset, oldest first. -/
def gapsSinceReset (history : List Operation) : List Gap :=
  ((openedAfter [] history).drop (history.length - (sinceReset history).length)).filterMap id

@[simp]
theorem gapsSinceReset_nil : gapsSinceReset [] = [] := rfl

theorem gapsSinceReset_append_singleton (history : List Operation) (last : Operation) :
    gapsSinceReset (history ++ [last]) =
      if last = .reset then [] else gapsSinceReset history ++ (openedBy history last).toList := by
  unfold gapsSinceReset
  rw [openedAfter_append_singleton, sinceReset_append_singleton, List.nil_append,
    List.length_append, List.length_singleton]
  split
  · rw [List.length_nil, Nat.sub_zero, List.drop_of_length_le (by simp), List.filterMap_nil]
  · have hsame : history.length + 1 - (sinceReset history ++ [last]).length =
        history.length - (sinceReset history).length := by
      rw [List.length_append, List.length_singleton]
      omega
    rw [hsame, List.drop_append_of_le_length (by simp), List.filterMap_append]
    cases openedBy history last <;> rfl

theorem gapsSinceReset_of_opened {history : List Operation} {last : Operation} {gap : Gap}
    (hopened : openedBy history last = some gap) :
    gapsSinceReset (history ++ [last]) = gapsSinceReset history ++ [gap] := by
  have hreset : last ≠ .reset := by
    rintro rfl
    cases hopened
  rw [gapsSinceReset_append_singleton, if_neg hreset, hopened]
  rfl

theorem gapsSinceReset_of_not_opened {history : List Operation} {last : Operation}
    (hreset : last ≠ .reset) (hopened : openedBy history last = none) :
    gapsSinceReset (history ++ [last]) = gapsSinceReset history := by
  rw [gapsSinceReset_append_singleton, if_neg hreset, hopened]
  exact List.append_nil _

/-- No more gaps were opened than numbers observed. -/
theorem length_gapsSinceReset_le (history : List Operation) :
    (gapsSinceReset history).length ≤ (history.filterMap Operation.number?).length := by
  induction history using List.reverseRecOn with
  | nil => exact Nat.le_refl 0
  | append_singleton history last ih =>
    rw [gapsSinceReset_append_singleton, List.filterMap_append, List.length_append]
    split
    · exact Nat.zero_le _
    · rw [List.length_append]
      refine Nat.add_le_add ih ?_
      cases last with
      | observe stream sequence =>
        cases openedBy history (.observe stream sequence) <;> simp [Operation.number?]
      | forget stream => exact Nat.le_refl 0
      | reset => exact Nat.le_refl 0

/-! ## Words -/

/-- How many numbers some gaps skip, all together. -/
def totalDistance (gaps : List Gap) : Nat := (gaps.map Gap.distance).sum

theorem totalDistance_append (gaps later : List Gap) :
    totalDistance (gaps ++ later) = totalDistance gaps + totalDistance later := by
  simp [totalDistance]

theorem totalDistance_append_singleton (gaps : List Gap) (last : Gap) :
    totalDistance (gaps ++ [last]) = totalDistance gaps + last.distance := by
  simp [totalDistance]

/-- In a trapping computation, there are words for how many gaps there are and for how many numbers
they skip. -/
def FitsWords (mode : OverflowMode) (gaps : List Gap) : Prop :=
  mode = .trapping → gaps.length < 2 ^ 64 ∧ totalDistance gaps < 2 ^ 64

instance (mode : OverflowMode) (gaps : List Gap) : Decidable (FitsWords mode gaps) :=
  inferInstanceAs (Decidable (_ → _))

theorem FitsWords.of_append {mode : OverflowMode} {gaps later : List Gap}
    (h : FitsWords mode (gaps ++ later)) : FitsWords mode gaps := by
  intro htrapping
  obtain ⟨hcount, htotal⟩ := h htrapping
  rw [List.length_append] at hcount
  rw [totalDistance_append] at htotal
  omega

/-- At no time are the gaps since the last reset, or the numbers they skip, too many for a word. -/
def Fits (mode : OverflowMode) (history : List Operation) : Prop :=
  ∀ n ≤ history.length, FitsWords mode (gapsSinceReset (history.take n))

instance (mode : OverflowMode) (history : List Operation) : Decidable (Fits mode history) :=
  inferInstanceAs (Decidable (∀ n ≤ history.length, _))

theorem fits_silent (history : List Operation) : Fits .silent history :=
  fun _ _ htrapping => nomatch htrapping

theorem fits_append_singleton_iff {mode : OverflowMode} {history : List Operation}
    {last : Operation} :
    Fits mode (history ++ [last]) ↔
      Fits mode history ∧ FitsWords mode (gapsSinceReset (history ++ [last])) := by
  have htake : ∀ n ≤ history.length, (history ++ [last]).take n = history.take n :=
    fun n hn => List.take_append_of_le_length hn
  constructor
  · intro h
    constructor
    · intro n hn
      rw [← htake n hn]
      exact h n (by rw [List.length_append]; omega)
    · have hall := h _ (Nat.le_refl _)
      rwa [List.take_length] at hall
  · rintro ⟨hearlier, hall⟩ n hn
    rw [List.length_append, List.length_singleton] at hn
    by_cases hlast : n ≤ history.length
    · rw [htake n hlast]
      exact hearlier n hlast
    · rw [List.take_of_length_le (by rw [List.length_append, List.length_singleton]; omega)]
      exact hall

theorem Fits.fitsWords {mode : OverflowMode} {history : List Operation} (h : Fits mode history) :
    FitsWords mode (gapsSinceReset history) := by
  have hall := h _ (Nat.le_refl _)
  rwa [List.take_length] at hall

end SequenceMonitor

end DepthFeed

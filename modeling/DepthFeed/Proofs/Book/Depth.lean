import Mathlib.Algebra.Order.BigOperators.Group.List
import Mathlib.Algebra.Order.Ring.Int
import DepthFeed.Proofs.Book.Ranks

/-!
# Quantities in the best levels

A sum over the levels at a price or better may stop at the first level past the price, since the
levels are in order: what it met are the best levels, as many as there are within the price. All
quantities are positive, so more levels hold more, up to the largest quantity.

* `Ticks.toInt_clamp`: the amount nearest to an integer.
* `Ladder.WellFormed.upTo_eq_filter`, `Ladder.WellFormed.upTo_eq_top`: the levels met before a price.
* `Ladder.WellFormed.sumOf_le_of_sublist`: sums of quantities.
* `Ladder.DepthLaws`, `Ladder.depthLaws_run`: depths, and quantities at a price or better.
-/

namespace DepthFeed

namespace Ticks

variable {m : Measure}

theorem toInt_clamp (n : Int) :
    (clamp n : Ticks m).count.toInt =
      Max.max Int64.minValue.toInt (min n Int64.maxValue.toInt) := by
  have hends : Int64.minValue.toInt ≤ Int64.maxValue.toInt := by decide
  show (Int64.ofIntClamp n).toInt = _
  unfold Int64.ofIntClamp
  split
  · split
    · rw [Int64.toInt_ofIntLE]
      omega
    · omega
  · omega

/-- A sum that is not negative is cut at the largest amount only. -/
theorem toInt_clamp_of_nonneg {n : Int} (h : 0 ≤ n) :
    (clamp n : Ticks m).count.toInt = min n Int64.maxValue.toInt := by
  have hleast : Int64.minValue.toInt ≤ 0 := by decide
  have hgreatest : 0 ≤ Int64.maxValue.toInt := by decide
  rw [toInt_clamp]
  omega

theorem clamp_le_clamp {k n : Int} (h : k ≤ n) : (clamp k : Ticks m) ≤ clamp n := by
  show (clamp k : Ticks m).count ≤ (clamp n : Ticks m).count
  rw [Int64.le_iff_toInt_le, toInt_clamp, toInt_clamp]
  omega

theorem IsPositive.toInt_pos {a : Ticks m} (h : a.IsPositive) : 0 < a.count.toInt :=
  Int64.lt_iff_toInt_lt.1 h

end Ticks

namespace Ladder

variable {side : Side} {b : Ladder side} {levels shorter : List Level}

/-! ## Sums of quantities -/

theorem sumOf_eq_sum (levels : List Level) :
    sumOf levels = (levels.map fun l => l.quantity.count.toInt).sum :=
  List.foldr_map.symm

theorem WellFormed.toInt_pos (h : b.WellFormed) {level : Level} (hmem : level ∈ b.levels) :
    0 < level.quantity.count.toInt :=
  (h.positive (h.find?_of_mem_levels hmem)).toInt_pos

/-- Fewer levels of a side do not hold more. -/
theorem WellFormed.sumOf_le_of_sublist (h : b.WellFormed) (hlevels : ∀ l ∈ levels, l ∈ b.levels)
    (hshorter : shorter.Sublist levels) : sumOf shorter ≤ sumOf levels := by
  rw [sumOf_eq_sum, sumOf_eq_sum]
  refine (hshorter.map _).sum_le_sum fun n hn => ?_
  obtain ⟨level, hlevel, rfl⟩ := List.mem_map.1 hn
  exact (h.toInt_pos (hlevels level hlevel)).le

theorem WellFormed.sumOf_nonneg (h : b.WellFormed) (hlevels : ∀ l ∈ levels, l ∈ b.levels) :
    0 ≤ sumOf levels :=
  h.sumOf_le_of_sublist hlevels (List.nil_sublist levels)

/-! ## The levels up to a price -/

/-- What holds of a list up to some place holds of no element after it. -/
theorem takeWhile_eq_filter {α : Type} {l : List α} {p : α → Bool}
    (h : l.Pairwise fun x y => p y → p x) : l.takeWhile p = l.filter p := by
  induction l with
  | nil => rfl
  | cons a l ih =>
    obtain ⟨hfirst, hrest⟩ := List.pairwise_cons.1 h
    cases ha : p a with
    | true => rw [List.takeWhile_cons_of_pos ha, List.filter_cons_of_pos ha, ih hrest]
    | false =>
      have hnone : l.filter p = [] := by
        rw [List.filter_eq_nil_iff]
        intro x hx hpx
        rw [hfirst x hx hpx] at ha
        cases ha
      rw [List.takeWhile_cons_of_neg (by simp [ha]), List.filter_cons_of_neg (by simp [ha]), hnone]

/-- The levels met before the first price past a limit are all those within it. -/
theorem WellFormed.upTo_eq_filter (h : b.WellFormed) (limit : Price) :
    b.upTo limit = b.levels.filter fun l => side.IsWithin l.price limit := by
  refine takeWhile_eq_filter (h.ordered.imp fun hbetter hwithin => ?_)
  rw [decide_eq_true_eq] at hwithin ⊢
  exact hbetter.isWithin.trans hwithin

/-- The levels within a limit are the best ones. -/
theorem WellFormed.upTo_eq_top (h : b.WellFormed) (limit : Price) :
    b.upTo limit = b.top (b.levels.countP fun l => side.IsWithin l.price limit) := by
  have hbest : b.upTo limit <+: b.levels := List.takeWhile_prefix _
  rw [top_eq_take_levels, List.countP_eq_length_filter, ← h.upTo_eq_filter limit]
  exact List.prefix_iff_eq_take.1 hbest

/-- The levels within the price of the one of rank `i` are that one and those before it. -/
theorem WellFormed.countP_isWithin (h : b.WellFormed) {i : Nat} {level : Level}
    (hrank : b.rank? i = some level) :
    b.levels.countP (fun k => side.IsWithin k.price level.price) = i + 1 := by
  have hworse (k : Level) (hk : side.IsBetter level.price k.price) :
      ¬ decide (side.IsWithin k.price level.price) = true := by
    rw [decide_eq_true_eq, Side.isWithin_iff_not_isBetter, not_not]
    exact hk
  have hself : decide (side.IsWithin level.price level.price) = true :=
    decide_eq_true (side.isWithin_refl level.price)
  rw [h.countP_of_rank? hrank (fun _ hk => decide_eq_true hk.isWithin) hworse, if_pos hself]

theorem WellFormed.atOrBetter_eq_depth (h : b.WellFormed) (limit : Price) :
    b.atOrBetter limit = b.depth (b.levels.countP fun l => side.IsWithin l.price limit) := by
  rw [atOrBetter, h.upTo_eq_top, depth, depthSum]

/-! ## Depths -/

theorem depthSum_eq (b : Ladder side) (n : Nat) : b.depthSum n = sumOf (b.levels.take n) := by
  rw [depthSum, top_eq_take_levels]

theorem mem_of_mem_top {n : Nat} {level : Level} (h : level ∈ b.top n) : level ∈ b.levels := by
  rw [top_eq_take_levels] at h
  exact List.mem_of_mem_take h

theorem WellFormed.depthSum_nonneg (h : b.WellFormed) (n : Nat) : 0 ≤ b.depthSum n :=
  h.sumOf_nonneg fun _ => mem_of_mem_top

theorem WellFormed.depth_le_depth (h : b.WellFormed) {m n : Nat} (hmn : m ≤ n) :
    b.depth m ≤ b.depth n :=
  Ticks.clamp_le_clamp
    (h.sumOf_le_of_sublist (fun _ => mem_of_mem_top) (b.top_isPrefix hmn).sublist)

theorem depth_of_size_le {n : Nat} (hn : b.size ≤ n) : b.depth n = b.depth b.size := by
  rw [← length_levels] at hn ⊢
  rw [depth, depth, depthSum_eq, depthSum_eq, List.take_of_length_le hn, List.take_length]

theorem WellFormed.atOrBetter_le_atOrBetter (h : b.WellFormed) {limit further : Price}
    (hwithin : side.IsWithin limit further) : b.atOrBetter limit ≤ b.atOrBetter further := by
  refine Ticks.clamp_le_clamp ?_
  rw [h.upTo_eq_filter, h.upTo_eq_filter]
  refine h.sumOf_le_of_sublist (fun _ => List.mem_of_mem_filter) ?_
  refine List.monotone_filter_right _ fun level hlevel => ?_
  rw [decide_eq_true_eq] at hlevel ⊢
  exact hlevel.trans hwithin

/-- How the quantities in the best levels of a side go together. -/
structure DepthLaws (b : Ladder side) : Prop where
  /-- The quantity at a price or better is the sum over all levels there, cut at the largest one. -/
  toInt_atOrBetter (limit : Price) :
    (b.atOrBetter limit).count.toInt =
      min (sumOf (b.levels.filter fun l => side.IsWithin l.price limit)) Int64.maxValue.toInt
  atOrBetter_eq_depth (limit : Price) :
    b.atOrBetter limit = b.depth (b.levels.countP fun l => side.IsWithin l.price limit)
  /-- At the price of a level, it is the quantity in the levels up to that one. -/
  atOrBetter_rank (i : Nat) : i < b.size →
    ∃ level, b.rank? i = some level ∧ b.atOrBetter level.price = b.depth (i + 1)
  /-- A depth is the exact sum over the best levels, cut at the largest quantity. -/
  toInt_depth (n : Nat) :
    (b.depth n).count.toInt = min (b.depthSum n) Int64.maxValue.toInt ∧
      b.depthSum n = sumOf (b.levels.take n)
  depth_le_depth (m n : Nat) : m ≤ n → b.depth m ≤ b.depth n
  depth_constant (n : Nat) : b.size ≤ n → b.depth n = b.depth b.size
  /-- A less aggressive price leaves no level out. -/
  atOrBetter_le (limit further : Price) :
    side.IsWithin limit further → b.atOrBetter limit ≤ b.atOrBetter further

theorem WellFormed.depthLaws (h : b.WellFormed) : b.DepthLaws where
  toInt_atOrBetter limit := by
    rw [← h.upTo_eq_filter]
    refine Ticks.toInt_clamp_of_nonneg (h.sumOf_nonneg fun level hlevel => ?_)
    exact (List.takeWhile_sublist _).subset hlevel
  atOrBetter_eq_depth := h.atOrBetter_eq_depth
  atOrBetter_rank i hi := by
    obtain ⟨level, hrank⟩ := Option.isSome_iff_exists.1 (isSome_rank?_iff.2 hi)
    refine ⟨level, hrank, ?_⟩
    rw [h.atOrBetter_eq_depth, h.countP_isWithin hrank]
  toInt_depth n := ⟨Ticks.toInt_clamp_of_nonneg (h.depthSum_nonneg n), b.depthSum_eq n⟩
  depth_le_depth _ _ := h.depth_le_depth
  depth_constant _ := depth_of_size_le
  atOrBetter_le _ _ := h.atOrBetter_le_atOrBetter

/-- Whatever was put on a side, hit and cleared, its depths and the quantities at a price or better
are sums over its best levels, cut at the largest quantity. -/
theorem depthLaws_run (side : Side) (changes : List Change) :
    ((empty : Ladder side).run changes).DepthLaws :=
  (WellFormed.empty.run changes).depthLaws

end Ladder

end DepthFeed

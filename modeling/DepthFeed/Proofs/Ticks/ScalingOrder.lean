import DepthFeed.Proofs.Ticks.Scaling

/-!
# Order under products with decimals

Both roundings of a product keep the order of numbers, and so does the end of the tick counts at
which a silent product stops. So products are ordered like the exact products, whatever the places
of the factors, and equal factors give equal products.

* `Ticks.cutProduct_le_cutProduct`: the first rounding keeps the order.
* `Ticks.RoundsTo.toInt_eq`: the second one, with the ends of the tick counts.
* `Ticks.scale_le_scale`, `Ticks.scale_congr`: products in order, and equal products.
* `Ticks.scale_keeps_order`: both in both modes, and the products of a sorted list.
-/

namespace DepthFeed.Ticks

variable {m : Measure} {mode : OverflowMode} {a b r s : Ticks m} {d e : Decimal} {x y : ℚ} {n k : ℤ}

theorem le_iff_toInt_le : r ≤ s ↔ r.count.toInt ≤ s.count.toInt := Int64.le_iff_toInt_le

/-! ## Two products -/

theorem cutProduct_le_cutProduct (h : a.product d ≤ b.product e) :
    a.cutProduct d ≤ b.cutProduct e := by
  obtain ⟨p, -, hx, hp⟩ | ⟨-, hx, hp⟩ := cutProduct_cases a d <;>
    obtain ⟨q, -, hy, hq⟩ | ⟨-, hy, hq⟩ := cutProduct_cases b e <;> rw [hp, hq]
  · exact hx.value_le_value hy h
  · -- only the higher product is too large for a decimal, so it is above all of them
    have hsize := hx.size_lt_limit.trans_le hy
    have hpositive : 0 ≤ b.product e := by
      by_contra! hnegative
      rw [abs_of_neg hnegative, abs_of_neg (h.trans_lt hnegative)] at hsize
      linarith
    rw [abs_of_nonneg hpositive] at hy
    linarith [le_abs_self p.value, p.abs_value_lt]
  · have hsize := hy.size_lt_limit.trans_le hx
    have hnegative : a.product d ≤ 0 := by
      by_contra! hpositive
      rw [abs_of_pos hpositive, abs_of_pos (hpositive.trans_le h)] at hsize
      linarith
    rw [abs_of_nonpos hnegative] at hx
    linarith [neg_abs_le q.value, q.abs_value_lt]
  · exact h

/-- An amount that a conversion returns is the nearest integer, moved into the tick counts. -/
theorem RoundsTo.toInt_eq (h : RoundsTo mode x n (.ok r)) :
    r.count.toInt = Max.max (-2 ^ 63) (Min.min (2 ^ 63 - 1) n) := by
  by_cases hfits : IsSigned64 n
  · obtain ⟨_, ⟨rfl⟩, hcount⟩ := h.counted hfits
    obtain ⟨hlow, hhigh⟩ := hfits
    omega
  · cases mode with
    | trapping => cases h.trapped hfits rfl
    | silent =>
      obtain rfl := Except.ok.inj (h.stopped hfits rfl)
      unfold IsSigned64 at hfits
      split
      · have hnegative : n ≤ 0 := by
          refine h.nearest.le_of_le (.intCast 0) ?_
          rw [Int.cast_zero]
          exact le_of_lt ‹_›
        rw [show (least : Ticks m).count.toInt = -2 ^ 63 from rfl]
        omega
      · have hpositive : 0 ≤ n := by
          refine (IsNearestEven.intCast 0).le_of_le h.nearest ?_
          rw [Int.cast_zero]
          exact not_lt.1 ‹_›
        rw [show (greatest : Ticks m).count.toInt = 2 ^ 63 - 1 from rfl]
        omega

theorem RoundsTo.le_of_le (hx : RoundsTo mode x n (.ok r)) (hy : RoundsTo mode y k (.ok s))
    (h : x ≤ y) : r ≤ s := by
  have hrounded := hx.nearest.le_of_le hy.nearest h
  rw [le_iff_toInt_le, hx.toInt_eq, hy.toInt_eq]
  omega

theorem scale_le_scale (h : a.product d ≤ b.product e) (hr : scale mode a d = .ok r)
    (hs : scale mode b e = .ok s) : r ≤ s := by
  obtain ⟨n, hn⟩ := exists_isNearestEven (a.cutProduct d)
  obtain ⟨k, hk⟩ := exists_isNearestEven (b.cutProduct e)
  have hx := scale_roundsTo_cutProduct mode hn
  have hy := scale_roundsTo_cutProduct mode hk
  rw [hr] at hx
  rw [hs] at hy
  exact hx.le_of_le hy (cutProduct_le_cutProduct h)

theorem scale_congr (mode : OverflowMode) (h : a.product d = b.product e) :
    scale mode a d = scale mode b e := by
  have hcut : a.cutProduct d = b.cutProduct e :=
    le_antisymm (cutProduct_le_cutProduct h.le) (cutProduct_le_cutProduct h.ge)
  obtain ⟨n, hn⟩ := exists_isNearestEven (a.cutProduct d)
  have hx := scale_roundsTo_cutProduct mode hn
  rw [hcut] at hn hx
  exact hx.outcome_eq (scale_roundsTo_cutProduct mode hn)

theorem exists_scale_silent (a : Ticks m) (d : Decimal) : ∃ r, scale .silent a d = .ok r := by
  unfold scale ofExact
  split
  · exact ⟨_, rfl⟩
  · split <;> exact ⟨_, rfl⟩

/-! ## Products of a list -/

section Lists

variable {α β ε : Type} {f : α → Except ε β} {xs : List α} {ys : List β}

theorem exists_of_mapM_cons_ok {x : α} (h : (x :: xs).mapM f = .ok ys) :
    ∃ y rest, f x = .ok y ∧ xs.mapM f = .ok rest ∧ ys = y :: rest := by
  rw [List.mapM_cons] at h
  cases hx : f x with
  | error cause => rw [hx] at h; cases h
  | ok y =>
    cases hxs : xs.mapM f with
    | error cause => rw [hx, hxs] at h; cases h
    | ok rest =>
      rw [hx, hxs] at h
      cases h
      exact ⟨y, rest, rfl, rfl, rfl⟩

theorem exists_of_mem_of_mapM_ok (h : xs.mapM f = .ok ys) : ∀ y ∈ ys, ∃ x ∈ xs, f x = .ok y := by
  induction xs generalizing ys with
  | nil => cases h; simp
  | cons x xs ih =>
    obtain ⟨y, rest, hx, hrest, rfl⟩ := exists_of_mapM_cons_ok h
    intro z hz
    obtain rfl | hz := List.mem_cons.1 hz
    · exact ⟨x, List.mem_cons_self, hx⟩
    · obtain ⟨w, hw, hwz⟩ := ih hrest z hz
      exact ⟨w, List.mem_cons_of_mem x hw, hwz⟩

/-- Results are in an order of their own if every two arguments in order have such results. -/
theorem pairwise_of_mapM_ok {R : α → α → Prop} {S : β → β → Prop} (h : xs.mapM f = .ok ys)
    (hxs : xs.Pairwise R)
    (hstep : ∀ x x' y y', R x x' → f x = .ok y → f x' = .ok y' → S y y') : ys.Pairwise S := by
  induction xs generalizing ys with
  | nil => cases h; exact .nil
  | cons x xs ih =>
    obtain ⟨y, rest, hx, hrest, rfl⟩ := exists_of_mapM_cons_ok h
    obtain ⟨hhead, htail⟩ := List.pairwise_cons.1 hxs
    refine List.pairwise_cons.2 ⟨?_, ih hrest htail⟩
    intro y' hy'
    obtain ⟨x', hmem, hx'⟩ := exists_of_mem_of_mapM_ok hrest y' hy'
    exact hstep x x' y y' (hhead x' hmem) hx hx'

theorem exists_mapM_ok (hall : ∀ x, ∃ y, f x = .ok y) (xs : List α) : ∃ ys, xs.mapM f = .ok ys := by
  induction xs with
  | nil => exact ⟨[], rfl⟩
  | cons x xs ih =>
    obtain ⟨y, hx⟩ := hall x
    obtain ⟨ys, hxs⟩ := ih
    refine ⟨y :: ys, ?_⟩
    rw [List.mapM_cons, hx, hxs]
    rfl

end Lists

/-- Products with decimals are in the order of the exact products: silent ones always, trapping ones
where neither is a fault. A product depends on the number of its factor only. The products of a
sorted list are sorted, the same way for a factor that is not negative and the other way round for
one that is not positive. -/
theorem scale_keeps_order (m : Measure) :
    (∀ (a b : Ticks m) (d e : Decimal), a.product d ≤ b.product e →
        (∃ r s, scale .silent a d = .ok r ∧ scale .silent b e = .ok s ∧ r ≤ s) ∧
          ∀ r s, scale .trapping a d = .ok r → scale .trapping b e = .ok s → r ≤ s) ∧
      (∀ (mode : OverflowMode) (a : Ticks m) (d e : Decimal), d.value = e.value →
        scale mode a d = scale mode a e) ∧
      ∀ (prices : List (Ticks m)) (d : Decimal), prices.Pairwise (· ≤ ·) →
        (∃ scaled, prices.mapM (fun a => scale .silent a d) = .ok scaled) ∧
          ∀ mode scaled, prices.mapM (fun a => scale mode a d) = .ok scaled →
            (0 ≤ d.value → scaled.Pairwise (· ≤ ·)) ∧ (d.value ≤ 0 → scaled.Pairwise (· ≥ ·)) := by
  refine ⟨?_, ?_, ?_⟩
  · intro a b d e h
    obtain ⟨r, hr⟩ := exists_scale_silent a d
    obtain ⟨s, hs⟩ := exists_scale_silent b e
    exact ⟨⟨r, s, hr, hs, scale_le_scale h hr hs⟩, fun _ _ => scale_le_scale h⟩
  · intro mode a d e h
    refine scale_congr mode ?_
    rw [product, product, h]
  · intro prices d hsorted
    refine ⟨exists_mapM_ok (exists_scale_silent · d) prices, ?_⟩
    intro mode scaled hscaled
    constructor
    · intro hd
      refine pairwise_of_mapM_ok hscaled hsorted fun a b r s hle hr hs => ?_
      refine scale_le_scale ?_ hr hs
      exact mul_le_mul_of_nonneg_right (Int.cast_le.2 (le_iff_toInt_le.1 hle)) hd
    · intro hd
      refine pairwise_of_mapM_ok hscaled hsorted fun a b r s hle hr hs => ?_
      refine scale_le_scale ?_ hs hr
      exact mul_le_mul_of_nonpos_right (Int.cast_le.2 (le_iff_toInt_le.1 hle)) hd

/-- Five ticks times 2.50 are not above three times 4.1666666666666666666666666667, where digits are
dropped, and both are 12. The factor 2.5 gives the same, and turned into its negative it reverses a
sorted list. -/
theorem scale_keeps_order_of_places :
    let long : Decimal := { mantissa := 41666666666666666666666666667, scale := 28 }
    let short : Decimal := { mantissa := 250, scale := 2 }
    let shorter : Decimal := { mantissa := 25, scale := 1 }
    let negative : Decimal := { mantissa := -25, scale := 1 }
    product (⟨5⟩ : Price) short ≤ product (⟨3⟩ : Price) long ∧
      (∃ r s : Price, scale .silent ⟨5⟩ short = .ok r ∧ scale .silent ⟨3⟩ long = .ok s ∧ r ≤ s) ∧
      scale .trapping (⟨5⟩ : Price) short = .ok ⟨12⟩ ∧
      scale .trapping (⟨3⟩ : Price) long = .ok ⟨12⟩ ∧ (⟨12⟩ : Price) ≤ ⟨12⟩ ∧
      short.value = shorter.value ∧
      scale .trapping (⟨5⟩ : Price) short = scale .trapping ⟨5⟩ shorter ∧
      ([⟨-1⟩, ⟨3⟩, ⟨5⟩] : List Price).mapM (fun a => scale .trapping a negative) =
        .ok [⟨2⟩, ⟨-8⟩, ⟨-12⟩] ∧
      ([⟨2⟩, ⟨-8⟩, ⟨-12⟩] : List Price).Pairwise (· ≥ ·) := by
  intro long short shorter negative
  obtain ⟨horder, hplaces, hlists⟩ := scale_keeps_order .price
  have hproducts : product (⟨5⟩ : Price) short ≤ product (⟨3⟩ : Price) long := by
    rw [product, product, show (⟨5⟩ : Price).count.toInt = 5 from rfl,
      show (⟨3⟩ : Price).count.toInt = 3 from rfl]
    norm_num [Decimal.value, short, long]
  have hvalues : short.value = shorter.value := by
    norm_num [Decimal.value, short, shorter]
  have hnegative : negative.value ≤ 0 := by
    norm_num [Decimal.value, negative]
  have hshort : scale .trapping (⟨5⟩ : Price) short = .ok ⟨12⟩ := by decide
  have hlong : scale .trapping (⟨3⟩ : Price) long = .ok ⟨12⟩ := by decide
  have hscaled : ([⟨-1⟩, ⟨3⟩, ⟨5⟩] : List Price).mapM (fun a => scale .trapping a negative) =
      .ok [⟨2⟩, ⟨-8⟩, ⟨-12⟩] := by decide
  obtain ⟨hsilent, htrapping⟩ := horder ⟨5⟩ ⟨3⟩ short long hproducts
  exact ⟨hproducts, hsilent, hshort, hlong, htrapping _ _ hshort hlong, hvalues,
    hplaces .trapping ⟨5⟩ short shorter hvalues, hscaled,
    ((hlists [⟨-1⟩, ⟨3⟩, ⟨5⟩] negative (by decide)).2 .trapping _ hscaled).2 hnegative⟩

end DepthFeed.Ticks

import DepthFeed.Proofs.Decimal.Text
import DepthFeed.Proofs.Ticks.Conversion

/-!
# Tick counts as decimals and texts

An amount is a decimal with eight places, and that decimal is what its text writes. Nothing is lost
on either way, from the least tick count to the greatest.

* `Ticks.value_toDecimal`, `Ticks.ofDecimal_toDecimal`: an amount and its decimal.
* `Ticks.Legible`: what the text of an amount tells of it.
* `Ticks.legible`: it is told of every amount.
-/

namespace DepthFeed.Ticks

variable {m : Measure}

theorem value_toDecimal (a : Ticks m) : a.toDecimal.value = a.count.toInt / 10 ^ 8 := rfl

theorem isSigned64_count (a : Ticks m) : IsSigned64 a.count.toInt :=
  ⟨a.count.le_toInt, a.count.toInt_lt⟩

/-- An amount is the conversion of its decimal. -/
theorem ofDecimal_toDecimal (mode : OverflowMode) (a : Ticks m) :
    (ofDecimal mode a.toDecimal : Except Fault (Ticks m)) = .ok a := by
  have hticks : a.toDecimal.value * 10 ^ 8 = a.count.toInt := by
    rw [value_toDecimal, div_mul_cancel₀ _ (by positivity)]
  have hnearest : IsNearestEven (a.toDecimal.value * 10 ^ 8) a.count.toInt := hticks ▸ .intCast _
  have hrounds := ofDecimal_roundsTo (m := m) mode a.toDecimal hnearest
  obtain ⟨⟨count⟩, houtcome, hcount⟩ := hrounds.counted a.isSigned64_count
  obtain rfl : count = a.count := Int64.toInt_inj.1 hcount
  exact houtcome

theorem value_toDecimal_lt_iff {a b : Ticks m} : a.toDecimal.value < b.toDecimal.value ↔ a < b := by
  have horder : a < b ↔ a.count.toInt < b.count.toInt := Int64.lt_iff_toInt_lt
  rw [horder, value_toDecimal, value_toDecimal, div_lt_div_iff_of_pos_right (by positivity),
    Int.cast_lt]

/-- The text of an amount is that of its decimal, which it is read back as. -/
theorem ofText?_text (a : Ticks m) : Decimal.ofText? a.text = some a.toDecimal :=
  a.toDecimal.ofText?_text

theorem isFixed_text (a : Ticks m) : Decimal.IsFixed places (decide (a.count < 0)) a.text := by
  have hsign : a.count < 0 ↔ a.toDecimal.mantissa < 0 := Int64.lt_iff_toInt_lt
  rw [decide_eq_decide.2 hsign]
  exact a.toDecimal.isFixed_text (by decide : places ≠ 0)

/-- An amount survives its decimal and its text. -/
structure Legible (a : Ticks m) : Prop where
  ofDecimal_toDecimal (mode : OverflowMode) :
    (ofDecimal mode a.toDecimal : Except Fault (Ticks m)) = .ok a
  /-- A minus sign exactly if the amount is negative, an integer part without superfluous zeros, a
  point and eight digits. -/
  fixed : Decimal.IsFixed 8 (decide (a.count < 0)) a.text
  /-- The text is read as the exact number of units, which is converted to the amount. -/
  read : ∃ d, Decimal.ofText? a.text = some d ∧ d.value = a.count.toInt / 10 ^ 8 ∧
    ∀ mode : OverflowMode, (ofDecimal mode d : Except Fault (Ticks m)) = .ok a
  text_ne (b : Ticks m) : a ≠ b → a.text ≠ b.text
  /-- As numbers, texts are in the order of their amounts. -/
  lt_iff (b : Ticks m) : ∀ d ∈ Decimal.ofText? a.text, ∀ e ∈ Decimal.ofText? b.text,
    d.value < e.value ↔ a < b

/-- Every amount survives its decimal and its text, and no other amount has the same text. -/
theorem legible (a : Ticks m) : a.Legible := by
  constructor
  case ofDecimal_toDecimal => exact fun mode => a.ofDecimal_toDecimal mode
  case fixed => exact a.isFixed_text
  case read =>
    exact ⟨a.toDecimal, a.ofText?_text, a.value_toDecimal, fun mode => a.ofDecimal_toDecimal mode⟩
  case text_ne =>
    intro b hne htext
    have hread := a.ofText?_text
    rw [htext, b.ofText?_text] at hread
    have hback := b.ofDecimal_toDecimal .silent
    rw [Option.some.inj hread, a.ofDecimal_toDecimal] at hback
    exact hne (Except.ok.inj hback)
  case lt_iff =>
    intro b d hd e he
    rw [a.ofText?_text] at hd
    rw [b.ofText?_text] at he
    cases hd
    cases he
    exact value_toDecimal_lt_iff

/-- The least tick count, whose size is no tick count, and the one next to zero. -/
example : (least : Price).text = "-92233720368.54775808" ∧ (⟨-1⟩ : Price).text = "-0.00000001" := by
  decide +kernel

end DepthFeed.Ticks

import Mathlib.Data.List.TakeWhile
import DepthFeed.Decimal.Text
import DepthFeed.Proofs.Decimal.Cut
import DepthFeed.Proofs.Digits

/-!
# Decimals read back from their texts

A decimal is written with all its places, so its text tells the mantissa and the scale.

* `Decimal.IsFixed`: an optional minus sign, digits without superfluous zeros, a point and digits.
* `Decimal.isFixed_text`: a decimal with places is written so.
* `Decimal.ofText?_text`: every decimal is read back from its text.
-/

namespace DepthFeed.Decimal

open Digits

variable {whole fraction : List Char} {scale : Nat}

/-- A text of digits with a point before the last `places` of them, after a minus sign if the number
is negative. -/
def IsFixed (places : Nat) (negative : Bool) (s : String) : Prop :=
  ∃ whole fraction,
    s.toList = (if negative then ['-'] else []) ++ whole ++ '.' :: fraction ∧
      IsWhole whole ∧ fraction.length = places ∧ ∀ c ∈ fraction, c.isDigit

/-! ## Texts without sign -/

theorem ne_point_of_isDigit {c : Char} (h : c.isDigit) : decide (c ≠ '.') = true := by
  rw [decide_eq_true_eq]
  rintro rfl
  exact absurd h (by decide)

/-- Digits without a point are a number without places. -/
theorem unsigned?_whole (hne : whole ≠ []) (hdigits : ∀ c ∈ whole, c.isDigit) :
    unsigned? whole = some (toNat whole, 0) := by
  have hrest : whole.dropWhile (fun c => c ≠ '.') = [] :=
    List.dropWhile_eq_nil_iff.2 fun c hc => ne_point_of_isDigit (hdigits c hc)
  rw [unsigned?, hrest, toNat?_eq_some hne hdigits]
  rfl

/-- Digits around a point are a number with as many places as there are digits after it. -/
theorem unsigned?_point (hne : whole ≠ []) (hdigits : ∀ c ∈ whole, c.isDigit)
    (hplaces : fraction ≠ []) (hfraction : ∀ c ∈ fraction, c.isDigit) :
    unsigned? (whole ++ '.' :: fraction) = some (toNat (whole ++ fraction), fraction.length) := by
  have hbefore : ∀ c ∈ whole, decide (c ≠ '.') = true := fun c hc =>
    ne_point_of_isDigit (hdigits c hc)
  have hrest : (whole ++ '.' :: fraction).dropWhile (fun c => c ≠ '.') = '.' :: fraction := by
    rw [List.dropWhile_append_of_pos hbefore]
    rfl
  have hwhole : (whole ++ '.' :: fraction).takeWhile (fun c => c ≠ '.') = whole := by
    rw [List.takeWhile_append_of_pos hbefore]
    exact List.append_nil whole
  rw [unsigned?, hrest]
  dsimp only
  rw [hwhole, toNat?_eq_some hne hdigits, toNat?_eq_some hplaces hfraction]
  rfl

/-- The text of a number without its sign. -/
def unsignedText (size scale : Nat) : List Char :=
  Nat.toDigits 10 (size / Nat.pow 10 scale) ++
    if scale = 0 then [] else '.' :: padded scale (size % Nat.pow 10 scale)

theorem plainText_eq (mantissa : Int) (scale : Nat) :
    plainText mantissa scale =
      (if mantissa < 0 then ['-'] else []) ++ unsignedText mantissa.natAbs scale :=
  List.append_assoc _ _ _

theorem length_places (hscale : scale ≠ 0) (size : Nat) :
    (padded scale (size % Nat.pow 10 scale)).length = scale :=
  length_padded (Nat.pos_of_ne_zero hscale) (Nat.mod_lt size (Nat.pow_pos (by decide)))

/-- The digits before and after the point are those of the number. -/
theorem unsigned?_unsignedText (size scale : Nat) :
    unsigned? (unsignedText size scale) = some (size, scale) := by
  have hwhole := isWhole_toDigits (size / Nat.pow 10 scale)
  unfold unsignedText
  split
  · rename_i hscale
    subst scale
    have hsize : size / Nat.pow 10 0 = size := Nat.div_one size
    rw [List.append_nil, unsigned?_whole hwhole.ne_nil hwhole.digits, toNat_toDigits, hsize]
  · rename_i hscale
    have hlength := length_places hscale size
    have hplaces : padded scale (size % Nat.pow 10 scale) ≠ [] := by
      rw [← List.length_pos_iff, hlength]
      exact Nat.pos_of_ne_zero hscale
    rw [unsigned?_point hwhole.ne_nil hwhole.digits hplaces fun _ => isDigit_of_mem_padded,
      toNat_append, toNat_toDigits, toNat_padded, hlength]
    exact congrArg (fun n => some (n, scale)) (Nat.div_add_mod size (Nat.pow 10 scale))

/-- A text without sign starts with a digit. -/
theorem unsignedText_ne_minus (size scale : Nat) (cs : List Char) :
    unsignedText size scale ≠ '-' :: cs := by
  have hwhole := isWhole_toDigits (size / Nat.pow 10 scale)
  obtain ⟨c, rest, hdigits⟩ := List.exists_cons_of_ne_nil hwhole.ne_nil
  intro h
  rw [unsignedText, hdigits, List.cons_append] at h
  have hdigit : '-'.isDigit := hwhole.digits '-' (by
    rw [hdigits, ← (List.cons.inj h).1]
    exact List.mem_cons_self)
  exact absurd hdigit (by decide)

/-! ## Texts of decimals -/

theorem ofText?_of_ne_minus {s : String} (h : ∀ cs, s.toList ≠ '-' :: cs) :
    ofText? s = unsigned? s.toList >>= fun (n, scale) => ofParts? n scale := by
  unfold ofText?
  split
  · rename_i hminus
    exact absurd hminus (h _)
  · rfl

/-- Every decimal is read back from its text, with its scale. -/
theorem ofText?_text (d : Decimal) : ofText? d.text = some d := by
  have hparts : ofParts? d.mantissa d.scale = some d := ofParts?_eq_some_iff.2 ⟨rfl, rfl⟩
  have htext : d.text.toList = plainText d.mantissa d.scale := String.toList_ofList
  rw [plainText_eq] at htext
  by_cases hsign : d.mantissa < 0
  · rw [if_pos hsign] at htext
    have hmantissa : -(d.mantissa.natAbs : Int) = d.mantissa := by omega
    unfold ofText?
    rw [htext]
    show unsigned? (unsignedText d.mantissa.natAbs d.scale) >>= _ = _
    rw [unsigned?_unsignedText, Option.bind_eq_bind, Option.bind_some]
    dsimp only
    rw [hmantissa, hparts]
  · rw [if_neg hsign, List.nil_append] at htext
    have hmantissa : (d.mantissa.natAbs : Int) = d.mantissa := by omega
    rw [ofText?_of_ne_minus fun cs => htext ▸ unsignedText_ne_minus _ _ cs, htext,
      unsigned?_unsignedText, Option.bind_eq_bind, Option.bind_some]
    dsimp only
    rw [hmantissa, hparts]

/-- A decimal that has places is written with a point before them. -/
theorem isFixed_text (d : Decimal) (hscale : d.scale ≠ 0) :
    IsFixed d.scale (decide (d.mantissa < 0)) d.text := by
  refine ⟨_, _, ?_, isWhole_toDigits (d.mantissa.natAbs / Nat.pow 10 d.scale),
    length_places hscale d.mantissa.natAbs, fun _ => isDigit_of_mem_padded⟩
  have htext : d.text.toList = plainText d.mantissa d.scale := String.toList_ofList
  rw [htext, plainText]
  simp only [if_neg hscale, decide_eq_true_eq]

end DepthFeed.Decimal

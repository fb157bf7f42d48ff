import Mathlib.Data.List.Basic
import Mathlib.Data.List.TakeWhile
import DepthFeed.Json.Printer
import DepthFeed.Json.Reader
import DepthFeed.Proofs.Digits

/-!
# Strings and numbers in a text

What is written of a string or of an integer is read back, whatever comes after it. A number ends
where its text does, or at what closes or separates the parts of a document.

* `Json.string?_renderString`: strings.
* `Json.Ends`: what may come after a value.
* `Json.number?_append`, `Json.number?_toString`: numbers.
-/

namespace DepthFeed.Json

variable {before cs rest : List Char} {c : Char} {n : Nat}

/-! ## Strings -/

theorem hexValue?_hexDigit : ∀ n < 16, hexValue? (hexDigit n) = some n := by decide

/-- Four hexadecimal digits are read as the number that they write. -/
theorem unit?_hexDigits (h : n < 0x10000) :
    ∃ a b c d, hexDigits 4 n = [a, b, c, d] ∧ unit? a b c d = some n := by
  have hdigit (k : Nat) : hexValue? (hexDigit (k % 16)) = some (k % 16) :=
    hexValue?_hexDigit _ (Nat.mod_lt k (by decide))
  refine ⟨_, _, _, _, rfl, ?_⟩
  rw [unit?, hdigit, hdigit, hdigit, hdigit]
  refine congrArg some ?_
  omega

theorem stringBody?_cons (hquote : c ≠ '\x22') (hbackslash : c ≠ '\x5c')
    (hprinted : 32 ≤ c.toNat) (before rest : List Char) :
    stringBody? before none (c :: rest) = stringBody? (c :: before) none rest := by
  rw [stringBody?, Option.isSome_none, if_neg Bool.false_ne_true, if_neg hquote,
    if_neg (Nat.not_lt.2 hprinted)]
  · intro _ _ _ _ _ h
    exact absurd h hbackslash
  · intro _ _ h
    exact absurd h hbackslash

theorem stringBody?_control (hcontrol : c.toNat < 32) (before rest : List Char) :
    stringBody? before none ('\x5c' :: 'u' :: (hexDigits 4 c.toNat ++ rest)) =
      stringBody? (c :: before) none rest := by
  obtain ⟨x, y, z, w, hdigits, hunit⟩ := unit?_hexDigits (Nat.lt_trans hcontrol (by decide))
  have hhigh : isHighUnit c.toNat = false := decide_eq_false (by omega)
  have hlow : isLowUnit c.toNat = false := decide_eq_false (by omega)
  rw [hdigits]
  change stringBody? before none ('\x5c' :: 'u' :: x :: y :: z :: w :: rest) = _
  rw [stringBody?.eq_def]
  simp only [hunit, hhigh, hlow, Bool.false_eq_true, if_false, Char.ofNat_toNat]

theorem stringBody?_escapeChar (before : List Char) (c : Char) (rest : List Char) :
    stringBody? before none (escapeChar c ++ rest) = stringBody? (c :: before) none rest := by
  unfold escapeChar
  split_ifs with hquote hbackslash hnewline hreturn htab hcontrol
  · subst c
    rfl
  · subst c
    rfl
  · subst c
    rfl
  · subst c
    rfl
  · subst c
    rfl
  · exact stringBody?_control hcontrol before rest
  · exact stringBody?_cons hquote hbackslash (Nat.not_lt.1 hcontrol) before rest

theorem stringBody?_flatMap_escapeChar (before cs rest : List Char) :
    stringBody? before none (cs.flatMap escapeChar ++ '\x22' :: rest) =
      some (before.reverse ++ cs, rest) := by
  induction cs generalizing before with
  | nil => rw [List.append_nil]; rfl
  | cons c cs ih =>
    rw [List.flatMap_cons, List.append_assoc, stringBody?_escapeChar, ih, List.reverse_cons,
      List.append_assoc, List.singleton_append]

/-- What is written of a string is a quote, and then what is read back as the string. -/
theorem string?_renderString (s : String) :
    ∃ cs, (renderString s).toList = '\x22' :: cs ∧
      ∀ rest, string? (cs ++ rest) = some (s, rest) := by
  refine ⟨_, String.toList_ofList, fun rest => ?_⟩
  rw [string?, List.append_assoc, List.singleton_append, stringBody?_flatMap_escapeChar]
  exact congrArg some (Prod.ext String.ofList_toList rfl)

/-! ## Numbers -/

/-- What may come after a value: nothing, or what separates or closes the parts of a document. -/
inductive Ends : List Char → Prop
  | nil : Ends []
  | comma (rest : List Char) : Ends (',' :: rest)
  | bracket (rest : List Char) : Ends (']' :: rest)
  | brace (rest : List Char) : Ends ('\x7d' :: rest)

theorem spanDigits_append (h : Ends rest) (cs : List Char) :
    spanDigits (cs ++ rest) = ((spanDigits cs).1, (spanDigits cs).2 ++ rest) := by
  induction cs with
  | nil => cases h <;> rfl
  | cons c cs ih =>
    cases hc : c.isDigit with
    | true =>
      simp only [spanDigits, List.cons_append, List.takeWhile_cons_of_pos hc,
        List.dropWhile_cons_of_pos hc, Prod.mk.injEq] at ih ⊢
      exact ⟨congrArg (c :: ·) ih.1, ih.2⟩
    | false =>
      rw [spanDigits, spanDigits, List.cons_append, List.takeWhile_cons, List.takeWhile_cons]
      simp [hc]

theorem digits?_append (h : Ends rest) (cs : List Char) :
    digits? (cs ++ rest) = (digits? cs).map fun (digits, r) => (digits, r ++ rest) := by
  simp only [digits?, spanDigits_append h]
  split <;> rfl

theorem whole?_append (h : Ends rest) (cs : List Char) :
    whole? (cs ++ rest) = (whole? cs).map fun (digits, r) => (digits, r ++ rest) := by
  rw [whole?, whole?, digits?_append h]
  cases digits? cs with
  | none => rfl
  | some scanned =>
    simp only [Option.map_some, Option.bind_eq_bind, Option.bind_some]
    split <;> rfl

theorem fraction?_append (h : Ends rest) (cs : List Char) :
    fraction? (cs ++ rest) = (fraction? cs).map fun (fraction, r) => (fraction, r ++ rest) := by
  obtain _ | ⟨c, cs⟩ := cs
  · cases h <;> rfl
  rw [List.cons_append]
  by_cases hpoint : c = '.'
  · subst c
    rw [fraction?, fraction?, digits?_append h, Option.map_map, Option.map_map]
    rfl
  · have hplain (tail : List Char) : fraction? (c :: tail) = some ([], c :: tail) := by
      rw [fraction?]
      intro _ heq
      exact hpoint (List.cons.inj heq).1
    rw [hplain, hplain]
    rfl

theorem signedDigits?_append (h : Ends rest) (cs : List Char) :
    signedDigits? (cs ++ rest) =
      (signedDigits? cs).map fun (digits, r) => (digits, r ++ rest) := by
  obtain _ | ⟨c, cs⟩ := cs
  · cases h <;> rfl
  rw [List.cons_append]
  by_cases hplus : c = '+'
  · subst c
    rw [signedDigits?, signedDigits?, digits?_append h, Option.map_map, Option.map_map]
    rfl
  by_cases hminus : c = '-'
  · subst c
    rw [signedDigits?, signedDigits?, digits?_append h, Option.map_map, Option.map_map]
    rfl
  · have hplain (tail : List Char) : signedDigits? (c :: tail) = digits? (c :: tail) := by
      rw [signedDigits?]
      · intro _ heq
        exact hplus (List.cons.inj heq).1
      · intro _ heq
        exact hminus (List.cons.inj heq).1
    rw [hplain, hplain, ← List.cons_append, digits?_append h]

theorem exponent?_append (h : Ends rest) (cs : List Char) :
    exponent? (cs ++ rest) = (exponent? cs).map fun (exponent, r) => (exponent, r ++ rest) := by
  obtain _ | ⟨c, cs⟩ := cs
  · cases h <;> rfl
  rw [List.cons_append, exponent?, exponent?, signedDigits?_append h]
  split
  · rw [Option.map_map, Option.map_map]
    rfl
  · rfl

theorem magnitude?_append (h : Ends rest) (negative : Bool) (cs : List Char) :
    magnitude? negative (cs ++ rest) =
      (magnitude? negative cs).map fun (number, r) => (number, r ++ rest) := by
  rw [magnitude?, magnitude?, whole?_append h]
  cases whole? cs with
  | none => rfl
  | some whole =>
    simp only [Option.map_some, Option.bind_eq_bind, Option.bind_some, fraction?_append h]
    cases fraction? whole.2 with
    | none => rfl
    | some fraction =>
      simp only [Option.map_some, Option.bind_some, exponent?_append h]
      cases exponent? fraction.2 with
      | none => rfl
      | some exponent =>
        simp only [Option.map_some, Option.bind_some]
        split <;> rfl

theorem number?_of_ne (hminus : c ≠ '-') (cs : List Char) :
    number? (c :: cs) = magnitude? false (c :: cs) := by
  rw [number?]
  intro _ heq
  exact hminus (List.cons.inj heq).1

/-- A number is read the same way whatever comes after it. -/
theorem number?_append (h : Ends rest) (cs : List Char) :
    number? (cs ++ rest) = (number? cs).map fun (number, r) => (number, r ++ rest) := by
  obtain _ | ⟨c, cs⟩ := cs
  · cases h <;> rfl
  rw [List.cons_append]
  by_cases hminus : c = '-'
  · subst c
    exact magnitude?_append h true cs
  · rw [number?_of_ne hminus, number?_of_ne hminus, ← List.cons_append, magnitude?_append h]

/-! ### Integers -/

theorem whole?_toDigits (n : Nat) :
    whole? (Nat.toDigits 10 n) = some (Nat.toDigits 10 n, []) := by
  have hspan : spanDigits (Nat.toDigits 10 n) = (Nat.toDigits 10 n, []) := by
    rw [spanDigits, List.takeWhile_eq_self_iff.2 fun c => Digits.isDigit_of_mem_toDigits,
      List.dropWhile_eq_nil_iff.2 fun c => Digits.isDigit_of_mem_toDigits]
  have hdigits : digits? (Nat.toDigits 10 n) = some (Nat.toDigits 10 n, []) := by
    simp only [digits?, hspan, List.isEmpty_iff, Nat.toDigits_ne_nil, if_false]
  have hzeros : ¬ ((Nat.toDigits 10 n).head? = some '0' ∧ (Nat.toDigits 10 n).length ≠ 1) := by
    rintro ⟨hhead, hlength⟩
    rw [(Digits.isWhole_toDigits n).eq_of_leading_zero hhead] at hlength
    exact hlength rfl
  rw [whole?, hdigits]
  exact if_neg hzeros

theorem magnitude?_toDigits (negative : Bool) (h : negative = true → n ≠ 0) :
    magnitude? negative (Nat.toDigits 10 n) =
      some (.integer (if negative then -n else n), []) := by
  have hzero : (negative && n == 0) = false := by
    rw [Bool.and_eq_false_imp]
    exact fun hnegative => beq_false_of_ne (h hnegative)
  rw [magnitude?, whole?_toDigits]
  simp only [Option.bind_eq_bind, Option.bind_some, fraction?, exponent?, Digits.toNat_toDigits,
    hzero]
  rfl

/-- What is written of an integer is read back as the integer. -/
theorem number?_toString (n : Int) : number? (toString n).toList = some (.integer n, []) := by
  change number? n.repr.toList = _
  rw [Int.repr_eq_if]
  split_ifs with hn
  · obtain ⟨c, cs, hdigits⟩ :=
      List.exists_cons_of_ne_nil (Nat.toDigits_ne_nil : Nat.toDigits 10 n.toNat ≠ [])
    have hminus : c ≠ '-' := by
      rintro rfl
      have hdigit : '-'.isDigit := Digits.isDigit_of_mem_toDigits (hdigits ▸ List.mem_cons_self)
      exact absurd hdigit (by decide)
    rw [Nat.repr_eq_ofList_toDigits, String.toList_ofList, hdigits, number?_of_ne hminus, ← hdigits,
      magnitude?_toDigits false nofun, if_neg Bool.false_ne_true, Int.toNat_of_nonneg hn]
  · have hread := magnitude?_toDigits true (n := (-n).toNat) (by omega)
    rw [if_pos rfl, show -((-n).toNat : Int) = n by omega] at hread
    rw [String.toList_append, Nat.repr_eq_ofList_toDigits, String.toList_ofList,
      String.toList_ofList]
    exact hread

end DepthFeed.Json

import DepthFeed.Decimal.Basic
import DepthFeed.Digits

/-!
# Decimals as text

* `Decimal.text` writes all places; `Decimal.shortText` leaves trailing zeros out.
* `Decimal.ofText?` reads an optional minus sign, digits, and digits after a point if there is one.
-/

namespace DepthFeed.Decimal

/-! ## Writing -/

/-- The text of `mantissa * 10 ^ -scale` with `scale` places, and no point without places. -/
def plainText (mantissa : Int) (scale : Nat) : List Char :=
  let size := mantissa.natAbs
  let sign := if mantissa < 0 then ['-'] else []
  let whole := Nat.toDigits 10 (size / Nat.pow 10 scale)
  let places := if scale = 0 then [] else '.' :: Digits.padded scale (size % Nat.pow 10 scale)
  sign ++ whole ++ places

/-- The text of a decimal with all its places. -/
def text (d : Decimal) : String := String.ofList (plainText d.mantissa d.scale)

/-- The mantissa and scale of the same number without trailing zeros. -/
def trimmed (mantissa : Int) : Nat → Int × Nat
  | 0 => (mantissa, 0)
  | scale + 1 =>
    if mantissa % 10 = 0 then trimmed (mantissa / 10) scale else (mantissa, scale + 1)

def shortText (d : Decimal) : String :=
  let (mantissa, scale) := trimmed d.mantissa d.scale
  String.ofList (plainText mantissa scale)

/-! ## Reading -/

/-- The mantissa and scale of a text without sign. -/
def unsigned? (cs : List Char) : Option (Nat × Nat) :=
  match cs.dropWhile (· ≠ '.') with
  | [] => (Digits.toNat? cs).map fun n => (n, 0)
  | _ :: places => do
    let whole := cs.takeWhile (· ≠ '.')
    let _ ← Digits.toNat? whole
    let _ ← Digits.toNat? places
    return (Digits.toNat (whole ++ places), places.length)

def ofText? (s : String) : Option Decimal :=
  match s.toList with
  | '-' :: cs => unsigned? cs >>= fun (n, scale) => ofParts? (-n) scale
  | cs => unsigned? cs >>= fun (n, scale) => ofParts? n scale

end DepthFeed.Decimal

import DepthFeed.Digits
import DepthFeed.Json.Basic

/-!
# Reading JSON

`Json.read?` reads a text that is one document with blanks around it. A member that occurs again
replaces the earlier one. A reader gives what it found at the beginning of a text, and the rest of
the text. The reader for values takes a bound on its steps; twice the length of the
text is enough, since a character is consumed at least at every other step.
-/

namespace DepthFeed.Json

/-- The characters of a text after its leading blanks. -/
def skipBlanks (cs : List Char) : List Char :=
  cs.dropWhile fun c => c = ' ' ∨ c = '\n' ∨ c = '\r' ∨ c = '\t'

/-- The rest of a text that begins with `word`. -/
def afterWord? (word : List Char) (cs : List Char) : Option (List Char) :=
  if word.isPrefixOf cs then some (cs.drop word.length) else none

/-! ## Strings -/

def hexValue? (c : Char) : Option Nat :=
  if '0' ≤ c ∧ c ≤ '9' then some (c.toNat - '0'.toNat)
  else if 'a' ≤ c ∧ c ≤ 'f' then some (c.toNat - 'a'.toNat + 10)
  else if 'A' ≤ c ∧ c ≤ 'F' then some (c.toNat - 'A'.toNat + 10)
  else none

def unit? (a b c d : Char) : Option Nat := do
  return (((← hexValue? a) * 16 + (← hexValue? b)) * 16 + (← hexValue? c)) * 16 + (← hexValue? d)

def escaped? (c : Char) : Option Char :=
  if c = '\x22' ∨ c = '\x5c' ∨ c = '/' then some c
  else if c = 'b' then some '\x08'
  else if c = 'f' then some '\x0c'
  else if c = 'n' then some '\n'
  else if c = 'r' then some '\r'
  else if c = 't' then some '\t'
  else none

/-- Whether a 16-bit unit begins a pair. -/
def isHighUnit (n : Nat) : Bool := 0xd800 ≤ n ∧ n < 0xdc00

def isLowUnit (n : Nat) : Bool := 0xdc00 ≤ n ∧ n < 0xe000

/-- The characters of a string up to its closing quote, after those read before, latest first;
`high` is the first unit of a pair that was just read. -/
def stringBody? (before : List Char) (high : Option Nat) :
    List Char → Option (List Char × List Char)
  | [] => none
  | '\x5c' :: 'u' :: a :: b :: c :: d :: rest =>
    match unit? a b c d, high with
    | none, _ => none
    | some n, some h =>
      if isLowUnit n then
        stringBody? (Char.ofNat (0x10000 + (h - 0xd800) * 0x400 + (n - 0xdc00)) :: before) none rest
      else none
    | some n, none =>
      if isHighUnit n then stringBody? before (some n) rest
      else if isLowUnit n then none
      else stringBody? (Char.ofNat n :: before) none rest
  | '\x5c' :: c :: rest =>
    match escaped? c, high with
    | some e, none => stringBody? (e :: before) none rest
    | _, _ => none
  | c :: rest =>
    if high.isSome then none
    else if c = '\x22' then some (before.reverse, rest)
    else if c.toNat < 32 then none
    else stringBody? (c :: before) none rest

/-- A string after its opening quote. -/
def string? (cs : List Char) : Option (String × List Char) :=
  (stringBody? [] none cs).map fun (body, rest) => (String.ofList body, rest)

/-! ## Numbers -/

def spanDigits (cs : List Char) : List Char × List Char :=
  (cs.takeWhile Char.isDigit, cs.dropWhile Char.isDigit)

def digits? (cs : List Char) : Option (List Char × List Char) :=
  let (digits, rest) := spanDigits cs
  if digits.isEmpty then none else some (digits, rest)

/-- The digits of a whole number without superfluous zeros. -/
def whole? (cs : List Char) : Option (List Char × List Char) := do
  let (digits, rest) ← digits? cs
  if digits.head? = some '0' ∧ digits.length ≠ 1 then none else some (digits, rest)

/-- A fraction with its point, or nothing. -/
def fraction? : List Char → Option (List Char × List Char)
  | '.' :: cs => (digits? cs).map fun (digits, rest) => ('.' :: digits, rest)
  | cs => some ([], cs)

/-- Digits with a sign, if there is one. -/
def signedDigits? : List Char → Option (List Char × List Char)
  | '+' :: cs => (digits? cs).map fun (digits, rest) => ('+' :: digits, rest)
  | '-' :: cs => (digits? cs).map fun (digits, rest) => ('-' :: digits, rest)
  | cs => digits? cs

/-- An exponent with its letter, or nothing. -/
def exponent? : List Char → Option (List Char × List Char)
  | c :: cs =>
    if c = 'e' ∨ c = 'E' then
      (signedDigits? cs).map fun (digits, rest) => (c :: digits, rest)
    else some ([], c :: cs)
  | [] => some ([], [])

/-- A number after its sign. -/
def magnitude? (negative : Bool) (cs : List Char) : Option (Json × List Char) := do
  let (whole, cs) ← whole? cs
  let (fraction, cs) ← fraction? cs
  let (exponent, rest) ← exponent? cs
  let magnitude := Digits.toNat whole
  if fraction.isEmpty && exponent.isEmpty && !(negative && magnitude == 0) then
    return (.integer (if negative then -magnitude else magnitude), rest)
  else
    let sign := if negative then ['-'] else []
    return (.real (String.ofList (sign ++ whole ++ fraction ++ exponent)), rest)

def number? : List Char → Option (Json × List Char)
  | '-' :: cs => magnitude? true cs
  | cs => magnitude? false cs

/-! ## Documents -/

mutual

/-- A value in at most `fuel` steps. -/
def value? : Nat → List Char → Option (Json × List Char)
  | 0, _ => none
  | fuel + 1, cs =>
    match skipBlanks cs with
    | [] => none
    | c :: rest =>
      if c = '[' then
        match skipBlanks rest with
        | ']' :: rest => some (.array [], rest)
        | rest => (items? fuel [] rest).map fun (items, r) => (.array items, r)
      else if c = '\x7b' then
        match skipBlanks rest with
        | '\x7d' :: rest => some (.object [], rest)
        | rest => (members? fuel [] rest).map fun (members, r) => (.object members, r)
      else if c = '\x22' then (string? rest).map fun (s, r) => (.string s, r)
      else if c = 'n' then (afterWord? ['u', 'l', 'l'] rest).map fun r => (.null, r)
      else if c = 't' then (afterWord? ['r', 'u', 'e'] rest).map fun r => (.bool true, r)
      else if c = 'f' then (afterWord? ['a', 'l', 's', 'e'] rest).map fun r => (.bool false, r)
      else number? (c :: rest)

/-- The items of an array up to its closing bracket, after those read before, latest first, in at
most `fuel` steps. -/
def items? : Nat → List Json → List Char → Option (List Json × List Char)
  | 0, _, _ => none
  | fuel + 1, before, cs => do
    let (item, rest) ← value? fuel cs
    match skipBlanks rest with
    | ',' :: rest => items? fuel (item :: before) rest
    | ']' :: rest => some ((item :: before).reverse, rest)
    | _ => none

/-- The members of an object up to its closing brace, after those already read, in at most `fuel`
steps. -/
def members? : Nat → List (String × Json) → List Char → Option (List (String × Json) × List Char)
  | 0, _, _ => none
  | fuel + 1, earlier, cs =>
    match skipBlanks cs with
    | '\x22' :: rest => do
      let (name, rest) ← string? rest
      match skipBlanks rest with
      | ':' :: rest =>
        let (value, rest) ← value? fuel rest
        let members := setMember name value earlier
        match skipBlanks rest with
        | ',' :: rest => members? fuel members rest
        | '\x7d' :: rest => some (members, rest)
        | _ => none
      | _ => none
    | _ => none

end

def read? (text : String) : Option Json := do
  let cs := text.toList
  let (value, rest) ← value? (2 * cs.length + 2) cs
  if (skipBlanks rest).isEmpty then some value else none

end DepthFeed.Json

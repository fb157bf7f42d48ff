import DepthFeed.Json.Basic

/-!
# Writing JSON

`Json.render` writes a document without blanks. In a string, quotes, backslashes and control
characters are escaped, and every other character stands for itself.
-/

namespace DepthFeed.Json

def hexDigit (n : Nat) : Char := "0123456789abcdef".toList.getD n '0'

/-- The lowercase hexadecimal digits of `n`, `width` of them. -/
def hexDigits : Nat → Nat → List Char
  | 0, _ => []
  | width + 1, n => hexDigits width (n / 16) ++ [hexDigit (n % 16)]

def escapeChar (c : Char) : List Char :=
  if c = '\x22' then ['\x5c', '\x22']
  else if c = '\x5c' then ['\x5c', '\x5c']
  else if c = '\n' then ['\x5c', 'n']
  else if c = '\r' then ['\x5c', 'r']
  else if c = '\t' then ['\x5c', 't']
  else if c.toNat < 32 then ['\x5c', 'u'] ++ hexDigits 4 c.toNat
  else [c]

def renderString (s : String) : String :=
  String.ofList ('\x22' :: (s.toList.flatMap escapeChar ++ ['\x22']))

mutual

def render : Json → String
  | .null => "null"
  | .bool true => "true"
  | .bool false => "false"
  | .integer n => toString n
  | .real literal => literal
  | .string s => renderString s
  | .array items => "[" ++ ",".intercalate (renderItems [] items) ++ "]"
  | .object members => "\x7b" ++ ",".intercalate (renderMembers [] members) ++ "\x7d"

/-- The texts of the items of an array, after those written before, latest first. -/
def renderItems (before : List String) : List Json → List String
  | [] => before.reverse
  | item :: items => renderItems (item.render :: before) items

/-- The texts of the members of an object, after those written before, latest first. -/
def renderMembers (before : List String) : List (String × Json) → List String
  | [] => before.reverse
  | (name, value) :: members =>
    renderMembers ((renderString name ++ ":" ++ value.render) :: before) members

end

end DepthFeed.Json

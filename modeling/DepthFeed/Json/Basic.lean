/-!
# JSON documents

A `Json` value keeps what a reader of records has to tell apart: a number without fraction and
exponent is an integer of any size, every other number is kept as its literal. An object is a list
of members; a reader gives each name once.

* `Json.fields?`, `Json.leadingFields?`: the fields of a record, written as an object or as an
  array.
* `Json.variant?`: the name of a variant without data.
-/

namespace DepthFeed

inductive Json where
  | null
  | bool (value : Bool)
  /-- A number without fraction and exponent. -/
  | integer (value : Int)
  /-- A number with a fraction or an exponent, or minus zero, as it was written. -/
  | real (literal : String)
  | string (value : String)
  | array (items : List Json)
  | object (members : List (String × Json))
deriving Inhabited, Repr

namespace Json

def member? (name : String) : Json → Option Json
  | .object members => members.lookup name
  | _ => none

/-- Members with `name` set to `value`, in the place of the earlier one if there is one. -/
def setMember (name : String) (value : Json) : List (String × Json) → List (String × Json)
  | [] => [(name, value)]
  | (n, v) :: rest =>
    if n = name then (n, value) :: rest else (n, v) :: setMember name value rest

/-- The fields of a record, in the order of their names, from an object by name or from an array
that has all of them; `none` where an object leaves one out. -/
def fields? (names : List String) : Json → Option (List (Option Json))
  | .object members => some (names.map fun name => members.lookup name)
  | .array items => if items.length = names.length then some (items.map some) else none
  | _ => none

/-- The fields of a record, where an array may leave out the last ones. -/
def leadingFields? (names : List String) : Json → Option (List (Option Json))
  | .object members => some (names.map fun name => members.lookup name)
  | .array items =>
    if items.length ≤ names.length then
      some (items.map some ++ List.replicate (names.length - items.length) none)
    else none
  | _ => none

/-- The name of a variant without data: the name alone, or an object with that one member, which is
null. -/
def variant? : Json → Option String
  | .string name => some name
  | .object [(name, .null)] => some name
  | _ => none

end Json

end DepthFeed

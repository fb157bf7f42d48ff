import DepthFeed.Json.Basic

/-!
# Values as JSON

A `JsonCodec` writes the values of a type as documents and reads them back. Numbers are read from
integers in range only. A field of a record is required, or may be left out for a fixed value.
-/

namespace DepthFeed

/-- Types whose values are written as JSON. -/
class JsonCodec (α : Type) where
  encode : α → Json
  decode? : Json → Option α

namespace JsonCodec

def integer? (least greatest : Int) : Json → Option Int
  | .integer n => if least ≤ n ∧ n ≤ greatest then some n else none
  | _ => none

instance : JsonCodec Int64 where
  encode n := .integer n.toInt
  decode? j := (integer? (-0x8000_0000_0000_0000) 0x7FFF_FFFF_FFFF_FFFF j).map Int64.ofInt

instance : JsonCodec Int32 where
  encode n := .integer n.toInt
  decode? j := (integer? (-0x8000_0000) 0x7FFF_FFFF j).map Int32.ofInt

instance : JsonCodec UInt64 where
  encode n := .integer n.toNat
  decode? j := (integer? 0 0xFFFF_FFFF_FFFF_FFFF j).map fun n => UInt64.ofNat n.toNat

instance : JsonCodec UInt32 where
  encode n := .integer n.toNat
  decode? j := (integer? 0 0xFFFF_FFFF j).map fun n => UInt32.ofNat n.toNat

instance : JsonCodec UInt16 where
  encode n := .integer n.toNat
  decode? j := (integer? 0 0xFFFF j).map fun n => UInt16.ofNat n.toNat

instance {α : Type} [JsonCodec α] : JsonCodec (Option α) where
  encode
    | none => .null
    | some a => encode a
  decode?
    | .null => some none
    | j => (decode? j).map some

instance {α : Type} [JsonCodec α] : JsonCodec (List α) where
  encode items := .array (items.map encode)
  decode?
    | .array items => items.mapM decode?
    | _ => none

/-- The value among `all` that a variant names. -/
def ofName? {α : Type} (all : List α) (name : α → String) (j : Json) : Option α := do
  let wanted ← j.variant?
  all.find? fun a => name a = wanted

/-! ## Fields -/

variable {α : Type} [JsonCodec α]

/-- The value of a field that has to be there. -/
def required? (field : Option Json) : Option α := field.bind decode?

/-- The value of a field, or `standard` where it is left out. -/
def orElse? (standard : α) : Option Json → Option α
  | none => some standard
  | some j => decode? j

end JsonCodec

end DepthFeed

import DepthFeed.Json.Records
import DepthFeed.Proofs.Json.Forms
import DepthFeed.Proofs.Json.Text

/-!
# Records read from their forms

`JsonCodec.Lawful` types are read back from every form of what is written of their values. Numbers
and variants are, and so are lists and records of such types.

* `JsonCodec.Lawful`, with an instance for each type that is written.
* `Settings.replaced`: settings with some fields from others.
* `Settings.decode?_object`, `Settings.decode?_array`: settings read from some of their fields.
* `JsonCodec.records_read_back`: every record read from its document and from its text.
-/

namespace DepthFeed

open JsonCodec

namespace JsonCodec

open Json

/-- Types whose values are read back from every form of what is written of them. -/
class Lawful (α : Type) [JsonCodec α] : Prop where
  encode_ne_null (a : α) : encode a ≠ .null
  written_encode (a : α) : Written (encode a)
  decode?_of_form {a : α} {j : Json} (h : Form (encode a) j) : decode? j = some a

open Lawful

variable {α : Type} {j : Json} {field : Option Json}

/-! ## Numbers -/

theorem map_integer?_of_form {least greatest n : Int} {f : Int → α} {a : α}
    (h : Form (.integer n) j) (hrange : least ≤ n ∧ n ≤ greatest) (hread : f n = a) :
    (integer? least greatest j).map f = some a := by
  rw [h.eq_integer, integer?, if_pos hrange, Option.map_some, hread]

instance : Lawful Int64 where
  encode_ne_null _ := nofun
  written_encode _ := .integer _
  decode?_of_form {n _} h := by
    have hlow := n.le_toInt
    have hhigh := n.toInt_lt
    exact map_integer?_of_form h (by omega) n.ofInt_toInt

instance : Lawful Int32 where
  encode_ne_null _ := nofun
  written_encode _ := .integer _
  decode?_of_form {n _} h := by
    have hlow := n.le_toInt
    have hhigh := n.toInt_lt
    exact map_integer?_of_form h (by omega) n.ofInt_toInt

instance : Lawful UInt64 where
  encode_ne_null _ := nofun
  written_encode _ := .integer _
  decode?_of_form {n _} h := by
    have hhigh := n.toNat_lt
    exact map_integer?_of_form h (by omega) n.ofNat_toNat

instance : Lawful UInt32 where
  encode_ne_null _ := nofun
  written_encode _ := .integer _
  decode?_of_form {n _} h := by
    have hhigh := n.toNat_lt
    exact map_integer?_of_form h (by omega) n.ofNat_toNat

instance : Lawful UInt16 where
  encode_ne_null _ := nofun
  written_encode _ := .integer _
  decode?_of_form {n _} h := by
    have hhigh := n.toNat_lt
    exact map_integer?_of_form h (by omega) n.ofNat_toNat

/-! ## Variants -/

theorem ofName?_of_form {all : List α} {name : α → String} {a : α} (h : Form (.string (name a)) j)
    (hfound : all.find? (fun b => name b = name a) = some a) : ofName? all name j = some a := by
  rw [ofName?, h.variant?]
  exact hfound

/-! ## Lists and fields -/

section Lawful

variable [JsonCodec α] [Lawful α]

instance : Lawful (List α) where
  encode_ne_null _ := nofun
  written_encode values := by
    refine .array fun item hitem => ?_
    obtain ⟨a, -, rfl⟩ := List.mem_map.1 hitem
    exact written_encode a
  decode?_of_form {values j} h := by
    obtain ⟨items, rfl, hitems⟩ := h.exists_items
    rw [List.forall₂_map_left_iff] at hitems
    change items.mapM decode? = some values
    clear h
    induction hitems with
    | nil => rfl
    | cons hitem _ ih => rw [List.mapM_cons, decode?_of_form hitem, ih]; rfl

/-- A value is never left out. -/
theorem exists_form_of_field {a : α} (h : Field (encode a) field) :
    ∃ j, field = some j ∧ Form (encode a) j := by
  generalize hvalue : encode a = value at h
  cases h with
  | given hform => exact ⟨_, rfl, hform⟩
  | leftOut => exact absurd hvalue (encode_ne_null a)

theorem required?_of_field {a : α} (h : Field (encode a) field) : required? field = some a := by
  obtain ⟨j, rfl, hform⟩ := exists_form_of_field h
  exact decode?_of_form hform

theorem written_encode_option (a : Option α) : Written (encode a) := by
  cases a with
  | none => exact .null
  | some a => exact written_encode a

theorem decode?_option_of_form {a : Option α} (h : Form (encode a) j) : decode? j = some a := by
  cases a with
  | none =>
    cases h
    rfl
  | some a =>
    have hsome : (decode? j).map some = some (some a) := by
      rw [decode?_of_form (a := a) h]
      rfl
    cases j with
    | null => exact absurd h.eq_null (encode_ne_null a)
    | _ => exact hsome

/-- An optional value is left out only where there is none. -/
theorem orElse?_of_field {a : Option α} (h : Field (encode a) field) :
    orElse? none field = some a := by
  cases a with
  | none =>
    cases h with
    | given hform => exact decode?_option_of_form hform
    | leftOut => rfl
  | some a =>
    obtain ⟨j, rfl, hform⟩ := exists_form_of_field (a := a) h
    exact decode?_option_of_form hform

theorem orElse?_of_fieldIn {held : List String} {name : String} {a standard : α}
    (h : FieldIn held (name, encode a) field) :
    orElse? standard field = some (if name ∈ held then a else standard) := by
  cases h with
  | given hheld hfield =>
    obtain ⟨j, rfl, hform⟩ := exists_form_of_field hfield
    rw [if_pos hheld]
    exact decode?_of_form hform
  | missing hheld => rw [if_neg hheld]; rfl

end Lawful

end JsonCodec

open Json Lawful

instance : Lawful Side where
  encode_ne_null _ := nofun
  written_encode _ := .string _
  decode?_of_form {s _} h := ofName?_of_form h (by cases s <;> rfl)

instance : Lawful Event.Kind where
  encode_ne_null _ := nofun
  written_encode _ := .string _
  decode?_of_form {k _} h := ofName?_of_form h (by cases k <;> rfl)

instance : Lawful TradeRule where
  encode_ne_null _ := nofun
  written_encode _ := .string _
  decode?_of_form {p _} h := ofName?_of_form h (by cases p <;> rfl)

instance : Lawful ShutdownRule where
  encode_ne_null _ := nofun
  written_encode _ := .string _
  decode?_of_form {p _} h := ofName?_of_form h (by cases p <;> rfl)

instance {m : Measure} : Lawful (Ticks m) where
  encode_ne_null a := encode_ne_null a.count
  written_encode a := written_encode a.count
  decode?_of_form {a j} h := by
    change (decode? j).map Ticks.mk = some a
    rw [decode?_of_form (a := a.count) h]
    rfl

instance : Lawful Instrument where
  encode_ne_null i := encode_ne_null i.number
  written_encode i := written_encode i.number
  decode?_of_form {i j} h := by
    change (decode? j).map Instrument.mk = some i
    rw [decode?_of_form (a := i.number) h]
    rfl

instance : Lawful Exchange where
  encode_ne_null e := encode_ne_null e.number
  written_encode e := written_encode e.number
  decode?_of_form {e j} h := by
    change (decode? j).map Exchange.mk = some e
    rw [decode?_of_form (a := e.number) h]
    rfl

/-! ## Records -/

instance : Lawful StreamId where
  encode_ne_null _ := nofun
  written_encode _ := .object (by decide : StreamId.fieldNames.Nodup) (by
    simp [written_encode])
  decode?_of_form {k j} h := by
    obtain ⟨fields, hfields, hread⟩ := h.fields? (by decide : StreamId.fieldNames.Nodup)
    obtain _ | ⟨hexchange, _ | ⟨hinstrument, ⟨⟩⟩⟩ := hread
    change j.fields? StreamId.fieldNames = _ at hfields
    simp only [decode?, hfields, required?_of_field hexchange, required?_of_field hinstrument,
      Option.bind_eq_bind, Option.bind_some, Option.pure_def]

instance : Lawful Gap where
  encode_ne_null _ := nofun
  written_encode _ := .object (by decide : Gap.fieldNames.Nodup) (by
    simp [written_encode])
  decode?_of_form {g j} h := by
    obtain ⟨fields, hfields, hread⟩ := h.fields? (by decide : Gap.fieldNames.Nodup)
    obtain _ | ⟨hstream, _ | ⟨hexpected, _ | ⟨hreceived, ⟨⟩⟩⟩⟩ := hread
    change j.fields? Gap.fieldNames = _ at hfields
    simp only [decode?, hfields, required?_of_field hstream, required?_of_field hexpected,
      required?_of_field hreceived, Option.bind_eq_bind, Option.bind_some, Option.pure_def]

instance : Lawful Level where
  encode_ne_null _ := nofun
  written_encode _ := .object (by decide : Level.fieldNames.Nodup) (by
    simp [written_encode, written_encode_option])
  decode?_of_form {l j} h := by
    obtain ⟨fields, hfields, hread⟩ := h.fields? (by decide : Level.fieldNames.Nodup)
    obtain _ | ⟨hprice, _ | ⟨hquantity, _ | ⟨hsequence, _ | ⟨htimestamp, _ | ⟨horders, ⟨⟩⟩⟩⟩⟩⟩ :=
      hread
    change j.fields? Level.fieldNames = _ at hfields
    simp only [decode?, hfields, required?_of_field hprice, required?_of_field hquantity,
      required?_of_field hsequence, required?_of_field htimestamp, orElse?_of_field horders,
      Option.bind_eq_bind, Option.bind_some, Option.pure_def]

instance : Lawful Event where
  encode_ne_null _ := nofun
  written_encode _ := .object (by decide : Event.fieldNames.Nodup) (by
    simp [written_encode, written_encode_option])
  decode?_of_form {e j} h := by
    obtain ⟨fields, hfields, hread⟩ := h.fields? (by decide : Event.fieldNames.Nodup)
    obtain _ | ⟨hsequence, _ | ⟨htimestamp, _ | ⟨hside, _ | ⟨hprice, hread⟩⟩⟩⟩ := hread
    obtain _ | ⟨hquantity, _ | ⟨hkind, _ | ⟨hinstrument, _ | ⟨hexchange, hread⟩⟩⟩⟩ := hread
    obtain _ | ⟨horders, ⟨⟩⟩ := hread
    change j.fields? Event.fieldNames = _ at hfields
    simp only [decode?, hfields, required?_of_field hsequence, required?_of_field htimestamp,
      required?_of_field hside, required?_of_field hprice, required?_of_field hquantity,
      required?_of_field hkind, required?_of_field hinstrument, required?_of_field hexchange,
      orElse?_of_field horders, Option.bind_eq_bind, Option.bind_some, Option.pure_def]

instance : Lawful Snapshot where
  encode_ne_null _ := nofun
  written_encode _ := .object (by decide : Snapshot.fieldNames.Nodup) (by
    simp [written_encode])
  decode?_of_form {s j} h := by
    obtain ⟨fields, hfields, hread⟩ := h.fields? (by decide : Snapshot.fieldNames.Nodup)
    obtain _ | ⟨hinstrument, _ | ⟨hsequence, _ | ⟨htimestamp, _ | ⟨hbids, _ | ⟨hasks, ⟨⟩⟩⟩⟩⟩⟩ :=
      hread
    change j.fields? Snapshot.fieldNames = _ at hfields
    simp only [decode?, hfields, required?_of_field hinstrument, required?_of_field hsequence,
      required?_of_field htimestamp, required?_of_field hbids, required?_of_field hasks,
      Option.bind_eq_bind, Option.bind_some, Option.pure_def]

/-! ## Settings -/

namespace Settings

/-- Settings with the named fields from others. -/
def replaced (s given : Settings) (names : List String) : Settings where
  ringCapacity := if "ring_capacity" ∈ names then given.ringCapacity else s.ringCapacity
  alertCapacity := if "gap_alert_capacity" ∈ names then given.alertCapacity else s.alertCapacity
  publishDepth := if "snapshot_depth" ∈ names then given.publishDepth else s.publishDepth
  publishInterval := if "snapshot_interval" ∈ names then given.publishInterval else s.publishInterval
  tradeRule := if "trade_policy" ∈ names then given.tradeRule else s.tradeRule
  shutdownRule := if "shutdown_policy" ∈ names then given.shutdownRule else s.shutdownRule

variable {s given : Settings} {held : List String} {n : Nat} {members : List (String × Json)}
  {items : List Json} {fields : List (Option Json)} {j : Json}

theorem replaced_fieldNames (s given : Settings) : s.replaced given fieldNames = given := by
  rw [replaced, if_pos (by decide), if_pos (by decide), if_pos (by decide), if_pos (by decide),
    if_pos (by decide), if_pos (by decide)]

theorem decode?_of_fieldIn (hfields : j.leadingFields? fieldNames = some fields)
    (hread : List.Forall₂ (FieldIn held) (encode s).members fields) :
    decode? j = some (standard.replaced s held) := by
  obtain _ | ⟨hring, _ | ⟨halerts, _ | ⟨hdepth, hread⟩⟩⟩ := hread
  obtain _ | ⟨hinterval, _ | ⟨htrades, _ | ⟨hshutdown, ⟨⟩⟩⟩⟩ := hread
  simp only [decode?, hfields, orElse?_of_fieldIn hring, orElse?_of_fieldIn halerts,
    orElse?_of_fieldIn hdepth, orElse?_of_fieldIn hinterval, orElse?_of_fieldIn htrades,
    orElse?_of_fieldIn hshutdown, Option.bind_eq_bind, Option.bind_some, Option.pure_def, replaced]

/-- Settings are read from an object with any of their fields. -/
theorem decode?_object
    (h : Lists fieldNames ((encode s).members.filter (·.1 ∈ held)) members) :
    decode? (.object members) = some (standard.replaced s held) := by
  have hlists : Lists ((encode s).members.map Prod.fst) _ members := h
  obtain ⟨fields, hfields, hread⟩ := hlists.leadingFields? (by decide : fieldNames.Nodup)
  exact decode?_of_fieldIn hfields hread

/-- Settings are read from an array of their first fields. -/
theorem decode?_array
    (h : List.Forall₂ Form (((encode s).members.map Prod.snd).take n) items) :
    decode? (.array items) = some (standard.replaced s (fieldNames.take n)) := by
  obtain ⟨fields, hfields, hread⟩ := leadingFields?_of_take h (by decide : fieldNames.Nodup)
  exact decode?_of_fieldIn hfields hread

instance : Lawful Settings where
  encode_ne_null _ := nofun
  written_encode _ := .object (by decide : fieldNames.Nodup) (by simp [written_encode])
  decode?_of_form {s j} h := by
    obtain ⟨members, rfl, hlists⟩ | ⟨items, rfl, hitems⟩ := h.lists_or_positional
    · have hall : (encode s).members.filter (·.1 ∈ fieldNames) = (encode s).members := by
        rw [List.filter_eq_self]
        intro member hmember
        have hname : member.1 ∈ (encode s).members.map Prod.fst := List.mem_map_of_mem hmember
        exact decide_eq_true hname
      have hheld : Lists fieldNames ((encode s).members.filter (·.1 ∈ fieldNames)) members := by
        rw [hall]
        exact hlists
      rw [decode?_object hheld, replaced_fieldNames]
    · rw [decode?_array (s := s) (n := 6) hitems]
      exact congrArg some (replaced_fieldNames standard s)

end Settings

/-! ## Round trips -/

namespace JsonCodec

/-- A value is read from a document, and from its text if the document has one. -/
structure IsReadAs {α : Type} [JsonCodec α] (j : Json) (a : α) : Prop where
  decoded : decode? j = some a
  text : j.Written → (read? j.render).bind decode? = some a

variable {α : Type} {j : Json}

theorem isReadAs_of_decode? [JsonCodec α] {a : α} (h : decode? j = some a) : IsReadAs j a where
  decoded := h
  text hwritten := by rw [read?_render hwritten]; exact h

theorem Lawful.isReadAs [JsonCodec α] [Lawful α] (a : α) :
    (encode a).Written ∧ ∀ j, Form (encode a) j → IsReadAs j a :=
  ⟨written_encode a, fun _ h => isReadAs_of_decode? (decode?_of_form h)⟩

/-- Every record has a text, and is read back from every form of what is written of it: with members
in another order, among unknown ones and without null ones, and as an array, in all its parts.
Settings are also read from any of their fields in an object, and from the first ones in an array;
the other fields are the standard ones. -/
theorem records_read_back :
    (∀ e : Event, (encode e).Written ∧ ∀ j, Form (encode e) j → IsReadAs j e) ∧
      (∀ l : Level, (encode l).Written ∧ ∀ j, Form (encode l) j → IsReadAs j l) ∧
      (∀ g : Gap, (encode g).Written ∧ ∀ j, Form (encode g) j → IsReadAs j g) ∧
      (∀ k : StreamId, (encode k).Written ∧ ∀ j, Form (encode k) j → IsReadAs j k) ∧
      (∀ s : Snapshot, (encode s).Written ∧ ∀ j, Form (encode s) j → IsReadAs j s) ∧
      (∀ s : Settings, (encode s).Written ∧ ∀ j, Form (encode s) j → IsReadAs j s) ∧
      (∀ (s : Settings) (held : List String) (members : List (String × Json)),
        Lists Settings.fieldNames ((encode s).members.filter (·.1 ∈ held)) members →
          IsReadAs (.object members) (Settings.standard.replaced s held)) ∧
      ∀ (s : Settings) (n : Nat) (items : List Json),
        List.Forall₂ Form (((encode s).members.map Prod.snd).take n) items →
          IsReadAs (.array items) (Settings.standard.replaced s (Settings.fieldNames.take n)) := by
  refine ⟨Lawful.isReadAs, Lawful.isReadAs, Lawful.isReadAs, Lawful.isReadAs, Lawful.isReadAs,
    Lawful.isReadAs, ?_, ?_⟩
  · intro s held members h
    exact isReadAs_of_decode? (Settings.decode?_object h)
  · intro s n items h
    exact isReadAs_of_decode? (Settings.decode?_array h)

/-- A snapshot with its members in the opposite order, an unknown one among them, and its bid as an
array; an event without its order count; settings with one field, and with the first two. -/
theorem records_read_back_nested_array :
    let bid : Level :=
      { price := ⟨1000⟩, quantity := ⟨5⟩, sequence := 7, timestamp := 9, orders := none }
    let snapshot : Snapshot :=
      { instrument := ⟨3⟩, sequence := 7, timestamp := 9, bids := [bid], asks := [] }
    let event : Event :=
      { sequence := -1, timestamp := 9, side := .sell, price := ⟨1000⟩, quantity := ⟨5⟩,
        kind := .trade, instrument := ⟨3⟩, exchange := ⟨1⟩, orders := none }
    let bidItems : Json := .array [.integer 1000, .integer 5, .integer 7, .integer 9, .null]
    let members : List (String × Json) := [("instrument_id", .integer 3), ("sequence", .integer 7),
      ("timestamp_us", .integer 9), ("bids", .array [bidItems]), ("asks", .array [])]
    let venue : List (String × Json) := [("venue", .object [("open", .bool true)])]
    IsReadAs (.object (members ++ venue).reverse) snapshot ∧
      IsReadAs (.object [("sequence", .integer (-1)), ("timestamp_us", .integer 9),
        ("side", .object [("Sell", .null)]), ("price", .integer 1000), ("quantity", .integer 5),
        ("kind", .string "Trade"), ("instrument_id", .integer 3), ("exchange", .integer 1)]) event ∧
      IsReadAs (.object (("snapshot_depth", .integer 3) :: venue))
        { Settings.standard with publishDepth := 3 } ∧
      IsReadAs (.array [.integer 8, .integer 1024])
        { Settings.standard with ringCapacity := 8 } := by
  intro bid snapshot event bidItems members venue
  obtain ⟨hevents, -, -, -, hsnapshots, -, hobjects, harrays⟩ := records_read_back
  refine ⟨(hsnapshots snapshot).2 _ ?_, (hevents event).2 _ ?_, ?_, ?_⟩
  · have hbid : Form (encode bid) bidItems :=
      .positional (List.forall₂_same.2 fun item _ => .same item)
    refine .object (.keep (.same _) <| .keep (.same _) <| .keep (.same _) <|
      .keep (.array (.cons hbid .nil)) <| .keep (.same _) .nil) ?_
      (List.reverse_perm (members ++ venue))
    exact List.forall_mem_singleton.2 (by decide)
  · refine .object (.keep (.same _) <| .keep (.same _) <| .keep (.variant "Sell") <|
      .keep (.same _) <| .keep (.same _) <| .keep (.same _) <| .keep (.same _) <|
      .keep (.same _) <| .leaveOut .nil) (List.forall_mem_nil _) ?_
    exact .refl _
  · refine hobjects { Settings.standard with publishDepth := 3 } ["snapshot_depth"] _ ?_
    exact .intro (.keep (.same _) .nil) (List.forall_mem_singleton.2 (by decide)) (.refl _)
  · exact harrays { Settings.standard with ringCapacity := 8 } 2 _
      (List.forall₂_same.2 fun item _ => .same item)

end JsonCodec

end DepthFeed

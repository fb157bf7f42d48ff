import Mathlib.Data.List.Forall2
import Mathlib.Data.List.Nodup
import DepthFeed.Json.Codec

/-!
# Forms of a document

A record may be written in other forms than its own. `Form j j'` relates a document to those that
tell a reader of records the same: objects with their members in another order, among members with
other names, or without the null ones; objects as arrays of their values; variants as objects; and
all of this again in the parts.

* `Json.Form`: the forms of a document.
* `Json.Lists`: the members of an object in another one, among other members.
* `Json.Field`: what a reader finds of a field; `Lists.field` in objects.
* `Form.fields?`: a reader finds every field of a record in every form of the record.
-/

namespace DepthFeed.Json

/-- The members of an object. -/
def members : Json → List (String × Json)
  | .object members => members
  | _ => []

/-- Members in order, each with a value that `R` relates to its own, without some of those that are
null. -/
inductive Kept (R : Json → Json → Prop) : List (String × Json) → List (String × Json) → Prop
  | nil : Kept R [] []
  | keep {name : String} {value value' : Json} {members members' : List (String × Json)}
      (hvalue : R value value') (hmembers : Kept R members members') :
      Kept R ((name, value) :: members) ((name, value') :: members')
  | leaveOut {name : String} {members members' : List (String × Json)}
      (hmembers : Kept R members members') : Kept R ((name, .null) :: members) members'

/-- The second document is a form of the first one. -/
inductive Form : Json → Json → Prop
  | same (j : Json) : Form j j
  | variant (name : String) : Form (.string name) (.object [(name, .null)])
  | array {items items' : List Json} (hitems : List.Forall₂ Form items items') :
      Form (.array items) (.array items')
  | positional {members : List (String × Json)} {items : List Json}
      (hitems : List.Forall₂ Form (members.map Prod.snd) items) :
      Form (.object members) (.array items)
  /-- The members in any order, among unknown ones. -/
  | object {members kept unknown members' : List (String × Json)} (hkept : Kept Form members kept)
      (hunknown : ∀ member ∈ unknown, member.1 ∉ members.map Prod.fst)
      (hperm : members'.Perm (kept ++ unknown)) :
      Form (.object members) (.object members')

/-- Members in any order, among others that have none of the `known` names. -/
inductive Lists (known : List String) (members members' : List (String × Json)) : Prop
  | intro {kept unknown : List (String × Json)} (hkept : Kept Form members kept)
      (hunknown : ∀ member ∈ unknown, member.1 ∉ known) (hperm : members'.Perm (kept ++ unknown))

/-- What a reader finds of a field with a value: a form of the value, or nothing if it is null. -/
inductive Field : Json → Option Json → Prop
  | given {value value' : Json} (hvalue : Form value value') : Field value (some value')
  | leftOut : Field .null none

/-- What a reader finds of a field where only those with the names `held` are given. -/
inductive FieldIn (held : List String) : String × Json → Option Json → Prop
  | given {member : String × Json} {field : Option Json} (hheld : member.1 ∈ held)
      (hfield : Field member.2 field) : FieldIn held member field
  | missing {member : String × Json} (hheld : member.1 ∉ held) : FieldIn held member none

variable {R : Json → Json → Prop} {j : Json} {name : String} {n : Int} {known held : List String}
  {members members' kept unknown : List (String × Json)} {items : List Json}

/-! ## Members -/

theorem Kept.refl (members : List (String × Json)) : Kept Form members members := by
  induction members with
  | nil => exact .nil
  | cons member members ih => exact .keep (.same member.2) ih

theorem Lists.refl (known : List String) (members : List (String × Json)) :
    Lists known members members :=
  .intro (.refl members) (List.forall_mem_nil _) (.of_eq (List.append_nil members).symm)

theorem Kept.names_sublist (h : Kept R members kept) :
    (kept.map Prod.fst).Sublist (members.map Prod.fst) := by
  induction h with
  | nil => exact .refl []
  | keep _ _ ih => exact ih.cons_cons _
  | leaveOut _ ih => exact ih.cons _

theorem lookup_eq_none (h : name ∉ members.map Prod.fst) : members.lookup name = none := by
  rw [List.lookup_eq_none_iff]
  intro member hmember
  rw [bne_iff_ne]
  rintro rfl
  exact h (List.mem_map_of_mem hmember)

theorem lookup_eq_some_iff_mem
    (hone : ∀ value value', (name, value) ∈ members → (name, value') ∈ members → value = value')
    {value : Json} : members.lookup name = some value ↔ (name, value) ∈ members := by
  have hmem : ∀ {value'}, members.lookup name = some value' → (name, value') ∈ members := by
    intro value' h
    obtain ⟨before, rest, rfl, -⟩ := List.lookup_eq_some_iff.1 h
    exact List.mem_append_right before List.mem_cons_self
  refine ⟨hmem, fun h => ?_⟩
  cases hlookup : members.lookup name with
  | none => exact absurd (List.lookup_eq_none_iff.1 hlookup _ h) (by simp)
  | some value' => rw [hone _ _ h (hmem hlookup)]

theorem lookup_eq_of_perm (hperm : members.Perm members')
    (hone : ∀ value value', (name, value) ∈ members → (name, value') ∈ members → value = value') :
    members.lookup name = members'.lookup name := by
  refine Option.ext fun value => ?_
  rw [lookup_eq_some_iff_mem hone, hperm.mem_iff, ← lookup_eq_some_iff_mem]
  intro value value' h h'
  exact hone value value' (hperm.mem_iff.2 h) (hperm.mem_iff.2 h')

theorem Kept.field (h : Kept Form members kept) (hnames : (members.map Prod.fst).Nodup) :
    ∀ member ∈ members, Field member.2 (kept.lookup member.1) := by
  induction h with
  | nil => exact List.forall_mem_nil _
  | @keep name value value' members kept hvalue hmembers ih =>
    obtain ⟨hname, hnames⟩ := List.nodup_cons.1 hnames
    refine List.forall_mem_cons.2 ⟨?_, ?_⟩
    · rw [List.lookup_cons_self]
      exact .given hvalue
    · intro member hmember
      have hne : member.1 ≠ name := by
        rintro rfl
        exact hname (List.mem_map.2 ⟨member, hmember, rfl⟩)
      rw [List.lookup_cons, beq_false_of_ne hne]
      exact ih hnames member hmember
  | @leaveOut name members kept hmembers ih =>
    obtain ⟨hname, hnames⟩ := List.nodup_cons.1 hnames
    refine List.forall_mem_cons.2 ⟨?_, ih hnames⟩
    rw [lookup_eq_none fun hmem => hname (hmembers.names_sublist.subset hmem)]
    exact .leftOut

/-- Under a known name a reader finds what was kept. -/
theorem Lists.exists_kept (h : Lists known members members')
    (hnames : (members.map Prod.fst).Nodup) :
    ∃ kept, Kept Form members kept ∧ ∀ name ∈ known, members'.lookup name = kept.lookup name := by
  obtain @⟨kept, unknown, hkept, hunknown, hperm⟩ := h
  refine ⟨kept, hkept, fun name hname => ?_⟩
  have hother : name ∉ unknown.map Prod.fst := by
    intro hmem
    obtain ⟨member, hmember, rfl⟩ := List.mem_map.1 hmem
    exact hunknown member hmember hname
  have hmem : ∀ {value}, (name, value) ∈ kept ++ unknown → (name, value) ∈ kept := by
    intro value h
    exact (List.mem_append.1 h).resolve_right fun h => hother (List.mem_map_of_mem h)
  rw [← lookup_eq_of_perm hperm.symm, List.lookup_append, lookup_eq_none hother, Option.or_none]
  intro value value' h h'
  have hpair := List.inj_on_of_nodup_map (hkept.names_sublist.nodup hnames) (hmem h) (hmem h') rfl
  exact congrArg Prod.snd hpair

/-- A reader finds every member that an object lists. -/
theorem Lists.field (h : Lists known members members') (hnames : (members.map Prod.fst).Nodup) :
    ∀ member ∈ members, member.1 ∈ known → Field member.2 (members'.lookup member.1) := by
  obtain ⟨kept, hkept, hlookup⟩ := h.exists_kept hnames
  intro member hmember hknown
  rw [hlookup member.1 hknown]
  exact hkept.field hnames member hmember

/-- A reader finds nothing where a known member is not listed. -/
theorem Lists.lookup_eq_none (h : Lists known members members')
    (hnames : (members.map Prod.fst).Nodup) (hknown : name ∈ known)
    (hname : name ∉ members.map Prod.fst) : members'.lookup name = none := by
  obtain ⟨kept, hkept, hlookup⟩ := h.exists_kept hnames
  rw [hlookup name hknown, Json.lookup_eq_none fun h => hname (hkept.names_sublist.subset h)]

/-! ## Documents -/

theorem Form.eq_null (h : Form j .null) : j = .null := by
  cases h
  rfl

theorem Form.eq_integer (h : Form (.integer n) j) : j = .integer n := by
  cases h
  rfl

theorem Form.variant? (h : Form (.string name) j) : j.variant? = some name := by
  cases h <;> rfl

theorem Form.exists_items (h : Form (.array items) j) :
    ∃ items', j = .array items' ∧ List.Forall₂ Form items items' := by
  cases h with
  | same => exact ⟨items, rfl, List.forall₂_same.2 fun item _ => .same item⟩
  | array hitems => exact ⟨_, rfl, hitems⟩

/-- A form of an object is an object that lists its members, or an array of their values. -/
theorem Form.lists_or_positional (h : Form (.object members) j) :
    (∃ members', j = .object members' ∧ Lists (members.map Prod.fst) members members') ∨
      ∃ items, j = .array items ∧ List.Forall₂ Form (members.map Prod.snd) items := by
  cases h with
  | same => exact .inl ⟨members, rfl, .refl _ members⟩
  | positional hitems => exact .inr ⟨_, rfl, hitems⟩
  | object hkept hunknown hperm => exact .inl ⟨_, rfl, .intro hkept hunknown hperm⟩

/-- A reader finds every field of a record in every form of the record. -/
theorem Form.fields? (h : Form (.object members) j) (hnames : (members.map Prod.fst).Nodup) :
    ∃ fields, j.fields? (members.map Prod.fst) = some fields ∧
      List.Forall₂ Field (members.map Prod.snd) fields := by
  obtain ⟨members', rfl, hlists⟩ | ⟨items, rfl, hitems⟩ := h.lists_or_positional
  · refine ⟨_, rfl, ?_⟩
    rw [List.map_map, List.forall₂_map_left_iff, List.forall₂_map_right_iff, List.forall₂_same]
    exact fun member hmember =>
      hlists.field hnames member hmember (List.mem_map_of_mem hmember)
  · refine ⟨items.map some, ?_, ?_⟩
    · rw [Json.fields?, if_pos]
      rw [← hitems.length_eq, List.length_map, List.length_map]
    · rw [List.forall₂_map_right_iff]
      exact hitems.imp fun _ _ => .given

/-! ## Records with some of their fields -/

theorem Lists.leadingFields?
    (h : Lists (members.map Prod.fst) (members.filter (·.1 ∈ held)) members')
    (hnames : (members.map Prod.fst).Nodup) :
    ∃ fields, (Json.object members').leadingFields? (members.map Prod.fst) = some fields ∧
      List.Forall₂ (FieldIn held) members fields := by
  have hheldNames : ((members.filter (·.1 ∈ held)).map Prod.fst).Nodup :=
    (List.filter_sublist.map Prod.fst).nodup hnames
  refine ⟨_, rfl, ?_⟩
  rw [List.map_map, List.forall₂_map_right_iff, List.forall₂_same]
  intro member hmember
  have hknown : member.1 ∈ members.map Prod.fst := List.mem_map_of_mem hmember
  by_cases hheld : member.1 ∈ held
  · have hlisted : member ∈ members.filter (·.1 ∈ held) :=
      List.mem_filter.2 ⟨hmember, decide_eq_true hheld⟩
    exact .given hheld (h.field hheldNames member hlisted hknown)
  · rw [Function.comp_apply, h.lookup_eq_none hheldNames hknown]
    · exact .missing hheld
    · intro hname
      obtain ⟨other, hother, hsame⟩ := List.mem_map.1 hname
      exact hheld (hsame ▸ of_decide_eq_true (List.mem_filter.1 hother).2)

theorem leadingFields?_of_take {n : Nat}
    (h : List.Forall₂ Form ((members.map Prod.snd).take n) items)
    (hnames : (members.map Prod.fst).Nodup) :
    ∃ fields, (Json.array items).leadingFields? (members.map Prod.fst) = some fields ∧
      List.Forall₂ (FieldIn ((members.map Prod.fst).take n)) members fields := by
  have hlength := h.length_eq
  rw [List.length_take, List.length_map] at hlength
  rw [← List.map_take, List.forall₂_map_left_iff] at h
  refine ⟨_, if_pos ?_, ?_⟩
  · rw [List.length_map]
    omega
  have hrest : List.replicate ((members.map Prod.fst).length - items.length) none =
      (members.drop n).map fun _ => (none : Option Json) := by
    rw [List.map_const', List.length_drop, List.length_map]
    congr 1
    omega
  have hgiven : List.Forall₂ (FieldIn ((members.map Prod.fst).take n)) (members.take n)
      (items.map some) := by
    have hnamed : ∀ member ∈ members.take n, member.1 ∈ (members.take n).map Prod.fst :=
      fun _ => List.mem_map_of_mem
    rw [List.forall₂_map_right_iff, ← List.map_take]
    refine ((List.forall₂_and_left _ _).2 ⟨hnamed, h⟩).imp ?_
    rintro member item ⟨hname, hitem⟩
    exact .given hname (.given hitem)
  have hmissing : List.Forall₂ (FieldIn ((members.map Prod.fst).take n)) (members.drop n)
      ((members.drop n).map fun _ => none) := by
    rw [List.forall₂_map_right_iff, List.forall₂_same]
    intro member hmember
    refine .missing fun htake => ?_
    have hdrop : member.1 ∈ (members.map Prod.fst).drop n := by
      rw [← List.map_drop]
      exact List.mem_map_of_mem hmember
    exact List.disjoint_take_drop hnames (Nat.le_refl n) htake hdrop
  have happend : List.Forall₂ _ (members.take n ++ members.drop n) _ :=
    List.rel_append hgiven hmissing
  rw [List.take_append_drop] at happend
  rw [hrest]
  exact happend

end DepthFeed.Json

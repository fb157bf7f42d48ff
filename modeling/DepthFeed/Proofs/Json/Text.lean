import DepthFeed.Proofs.Json.Tokens

/-!
# Documents and their texts

The text of a document is read back as the document, if the document is `Written`: if no name occurs
twice in an object, and numbers other than integers are literals of such numbers.

* `Json.Written`: the documents that have a text.
* `Json.Reads`: what a reader does with the text of a document, whatever comes after it.
* `Json.read?_render`: the text of a document is read back.
-/

namespace DepthFeed.Json

/-- Documents that have a text of their own. -/
inductive Written : Json → Prop
  | null : Written .null
  | bool (value : Bool) : Written (.bool value)
  | integer (value : Int) : Written (.integer value)
  /-- The literal is that of a number, and not of an integer. -/
  | real {literal : String} (hliteral : number? literal.toList = some (.real literal, [])) :
      Written (.real literal)
  | string (value : String) : Written (.string value)
  | array {items : List Json} (hitems : ∀ item ∈ items, Written item) : Written (.array items)
  | object {members : List (String × Json)} (hnames : (members.map Prod.fst).Nodup)
      (hvalues : ∀ member ∈ members, Written member.2) : Written (.object members)

/-- The text of a document is read back as the document. -/
def Reads (j : Json) : Prop :=
  ∀ fuel rest, 2 * j.render.toList.length ≤ fuel → Ends rest →
    value? fuel (j.render.toList ++ rest) = some (j, rest)

/-- Characters that are not blank and do not close an array, as those a value begins with. -/
def Opens (c : Char) : Prop := c ∉ [' ', '\n', '\r', '\t', ']']

instance : DecidablePred Opens := fun _ => inferInstanceAs (Decidable (¬ _))

/-- The text of a member. -/
def memberText (member : String × Json) : List Char :=
  (renderString member.1).toList ++ ':' :: member.2.render.toList

variable {j : Json} {c : Char} {cs rest : List Char} {fuel : Nat} {name : String}
  {items : List Json} {members earlier : List (String × Json)}

/-! ## Texts -/

theorem renderItems_eq (before : List String) (items : List Json) :
    renderItems before items = before.reverse ++ items.map render := by
  induction items generalizing before with
  | nil => rw [renderItems, List.map_nil, List.append_nil]
  | cons item items ih =>
    rw [renderItems, ih, List.reverse_cons, List.append_assoc, List.singleton_append, List.map_cons]

theorem renderMembers_eq (before : List String) (members : List (String × Json)) :
    renderMembers before members =
      before.reverse ++ members.map fun (name, value) => renderString name ++ ":" ++ value.render := by
  induction members generalizing before with
  | nil => rw [renderMembers, List.map_nil, List.append_nil]
  | cons member members ih =>
    rw [renderMembers, ih, List.reverse_cons, List.append_assoc, List.singleton_append,
      List.map_cons]

theorem toList_render_array (items : List Json) :
    (Json.array items).render.toList =
      '[' :: ([','].intercalate (items.map (·.render.toList)) ++ [']']) := by
  rw [render, renderItems_eq, List.reverse_nil, List.nil_append, String.toList_append,
    String.toList_append, String.toList_intercalate, List.map_map]
  rfl

theorem toList_render_object (members : List (String × Json)) :
    (Json.object members).render.toList =
      '\x7b' :: ([','].intercalate (members.map memberText) ++ ['\x7d']) := by
  have hmember : String.toList ∘ (fun (name, value) => renderString name ++ ":" ++ value.render) =
      memberText := by
    funext member
    rw [Function.comp_apply, String.toList_append, String.toList_append, List.append_assoc]
    rfl
  rw [render, renderMembers_eq, List.reverse_nil, List.nil_append, String.toList_append,
    String.toList_append, String.toList_intercalate, List.map_map, hmember]
  rfl

/-! ## First characters -/

theorem skipBlanks_cons (h : Opens c) (cs : List Char) : skipBlanks (c :: cs) = c :: cs := by
  rw [skipBlanks, List.dropWhile_cons_of_neg]
  rw [decide_eq_true_eq]
  rintro (rfl | rfl | rfl | rfl) <;> exact absurd h (by decide)

theorem opens_of_first (h : c = '-' ∨ c.isDigit) : Opens c := by
  intro hmem
  simp only [List.mem_cons, List.not_mem_nil, or_false] at hmem
  obtain rfl | rfl | rfl | rfl | rfl := hmem <;> exact absurd h (by decide)

theorem exists_cons_of_number? {result : Json × List Char} (h : number? cs = some result) :
    ∃ c tail, cs = c :: tail ∧ (c = '-' ∨ c.isDigit) := by
  obtain _ | ⟨c, cs⟩ := cs
  · cases h
  refine ⟨c, cs, rfl, ?_⟩
  by_contra! hfirst
  obtain ⟨hminus, hdigit⟩ := hfirst
  rw [number?_of_ne hminus, magnitude?, whole?, digits?, spanDigits,
    List.takeWhile_cons_of_neg hdigit] at h
  cases h

theorem value?_of_number? {result : Json × List Char} (h : number? cs = some result) :
    value? (fuel + 1) cs = some result := by
  obtain ⟨c, cs, rfl, hfirst⟩ := exists_cons_of_number? h
  rw [value?, skipBlanks_cons (opens_of_first hfirst)]
  simp only []
  rw [if_neg, if_neg, if_neg, if_neg, if_neg, if_neg, h]
  all_goals
    rintro rfl
    exact absurd hfirst (by decide)

theorem Written.exists_opens (h : Written j) : ∃ c cs, j.render.toList = c :: cs ∧ Opens c := by
  cases h with
  | null => exact ⟨'n', _, rfl, by decide⟩
  | bool value => cases value <;> exact ⟨_, _, rfl, by decide⟩
  | integer value =>
    obtain ⟨c, cs, hcs, hfirst⟩ := exists_cons_of_number? (number?_toString value)
    exact ⟨c, cs, hcs, opens_of_first hfirst⟩
  | real hliteral =>
    obtain ⟨c, cs, hcs, hfirst⟩ := exists_cons_of_number? hliteral
    exact ⟨c, cs, hcs, opens_of_first hfirst⟩
  | string value =>
    obtain ⟨cs, hcs, -⟩ := string?_renderString value
    exact ⟨'\x22', cs, hcs, by decide⟩
  | array => exact ⟨'[', _, toList_render_array _, by decide⟩
  | object => exact ⟨'\x7b', _, toList_render_object _, by decide⟩

/-! ## Parts -/

theorem items?_item {item : Json} (hitem : Reads item) (hfuel : 2 * item.render.toList.length ≤ fuel)
    (before : List Json) (rest : List Char) :
    items? (fuel + 1) before (item.render.toList ++ ',' :: rest) =
        items? fuel (item :: before) rest ∧
      items? (fuel + 1) before (item.render.toList ++ ']' :: rest) =
        some ((item :: before).reverse, rest) := by
  constructor
  · rw [items?, hitem fuel _ hfuel (.comma rest)]
    rfl
  · rw [items?, hitem fuel _ hfuel (.bracket rest)]
    rfl

/-- The items of an array are read in order, up to its closing bracket. -/
theorem items?_intercalate (hitems : ∀ item ∈ items, Reads item) (hne : items ≠ [])
    (before : List Json) (rest : List Char)
    (hfuel : 2 * ([','].intercalate (items.map (·.render.toList))).length < fuel) :
    items? fuel before ([','].intercalate (items.map (·.render.toList)) ++ ']' :: rest) =
      some (before.reverse ++ items, rest) := by
  induction items generalizing fuel before with
  | nil => exact absurd rfl hne
  | cons item items ih =>
    obtain ⟨hitem, hitems⟩ := List.forall_mem_cons.1 hitems
    obtain _ | fuel := fuel
    · exact absurd hfuel (Nat.not_lt_zero _)
    rw [List.map_cons] at hfuel ⊢
    obtain rfl | hmore := eq_or_ne items []
    · rw [List.map_nil, List.intercalate_singleton] at hfuel ⊢
      rw [(items?_item hitem (by omega) before rest).2, List.reverse_cons]
    · have hmap : items.map (·.render.toList) ≠ [] := by rwa [ne_eq, List.map_eq_nil_iff]
      rw [List.intercalate_cons_of_ne_nil hmap] at hfuel ⊢
      rw [List.length_append, List.length_append, List.length_singleton] at hfuel
      rw [List.append_assoc, List.append_assoc, List.singleton_append,
        (items?_item hitem (by omega) before _).1, ih hitems hmore (item :: before) (by omega),
        List.reverse_cons, List.append_assoc, List.singleton_append]

theorem setMember_of_notMem (h : name ∉ earlier.map Prod.fst) (value : Json) :
    setMember name value earlier = earlier ++ [(name, value)] := by
  induction earlier with
  | nil => rfl
  | cons member earlier ih =>
    rw [List.map_cons, List.mem_cons, not_or] at h
    rw [setMember, if_neg (Ne.symm h.1), ih h.2, List.cons_append]

theorem members?_member {member : String × Json} (hvalue : Reads member.2)
    (hname : member.1 ∉ earlier.map Prod.fst) (hfuel : 2 * (memberText member).length ≤ fuel)
    (rest : List Char) :
    members? (fuel + 1) earlier (memberText member ++ ',' :: rest) =
        members? fuel (earlier ++ [member]) rest ∧
      members? (fuel + 1) earlier (memberText member ++ '\x7d' :: rest) =
        some (earlier ++ [member], rest) := by
  obtain ⟨text, htext, hread⟩ := string?_renderString member.1
  have hmember (tail : List Char) : memberText member ++ tail =
      '\x22' :: (text ++ ':' :: (member.2.render.toList ++ tail)) := by
    rw [memberText, htext, List.append_assoc]
    rfl
  have hshort : 2 * member.2.render.toList.length ≤ fuel := by
    rw [memberText, List.length_append, List.length_cons] at hfuel
    omega
  have hset := setMember_of_notMem hname member.2
  have hquote (tail : List Char) : skipBlanks ('\x22' :: tail) = '\x22' :: tail := rfl
  have hcolon (tail : List Char) : skipBlanks (':' :: tail) = ':' :: tail := rfl
  constructor
  · rw [hmember, members?, hquote]
    simp only [hread, Option.bind_eq_bind, Option.bind_some, hcolon,
      hvalue fuel _ hshort (.comma rest), hset]
    rfl
  · rw [hmember, members?, hquote]
    simp only [hread, Option.bind_eq_bind, Option.bind_some, hcolon,
      hvalue fuel _ hshort (.brace rest), hset]
    rfl

/-- The members of an object are read in order, up to its closing brace. -/
theorem members?_intercalate (hvalues : ∀ member ∈ members, Reads member.2)
    (hne : members ≠ []) (hnames : ((earlier ++ members).map Prod.fst).Nodup) (rest : List Char)
    (hfuel : 2 * ([','].intercalate (members.map memberText)).length < fuel) :
    members? fuel earlier ([','].intercalate (members.map memberText) ++ '\x7d' :: rest) =
      some (earlier ++ members, rest) := by
  induction members generalizing fuel earlier with
  | nil => exact absurd rfl hne
  | cons member members ih =>
    obtain ⟨hvalue, hvalues⟩ := List.forall_mem_cons.1 hvalues
    have hnew : member.1 ∉ earlier.map Prod.fst := by
      rw [List.map_append, List.map_cons] at hnames
      intro hmem
      exact (List.nodup_append.1 hnames).2.2 _ hmem _ List.mem_cons_self rfl
    obtain _ | fuel := fuel
    · exact absurd hfuel (Nat.not_lt_zero _)
    rw [List.map_cons] at hfuel ⊢
    obtain rfl | hmore := eq_or_ne members []
    · rw [List.map_nil, List.intercalate_singleton] at hfuel ⊢
      exact (members?_member hvalue hnew (by omega) rest).2
    · have hmap : members.map memberText ≠ [] := by rwa [ne_eq, List.map_eq_nil_iff]
      rw [List.intercalate_cons_of_ne_nil hmap] at hfuel ⊢
      rw [List.length_append, List.length_append, List.length_singleton] at hfuel
      rw [List.append_cons] at hnames
      rw [List.append_assoc, List.append_assoc, List.singleton_append,
        (members?_member hvalue hnew (by omega) _).1, ih hvalues hmore hnames (by omega),
        List.append_assoc, List.singleton_append]

/-! ## Documents -/

theorem value?_array (h : Opens c) (fuel : Nat) (cs : List Char) :
    value? (fuel + 1) ('[' :: c :: cs) =
      (items? fuel [] (c :: cs)).map fun (items, r) => (.array items, r) := by
  have hopen : skipBlanks ('[' :: c :: cs) = '[' :: c :: cs := rfl
  rw [value?, hopen]
  simp only [if_true, skipBlanks_cons h]
  split
  · next heq =>
    cases heq
    exact absurd h (by decide)
  · rfl

theorem value?_object (fuel : Nat) (cs : List Char) :
    value? (fuel + 1) ('\x7b' :: '\x22' :: cs) =
      (members? fuel [] ('\x22' :: cs)).map fun (members, r) => (.object members, r) := rfl

theorem exists_intercalate_eq_cons (c : Char) (cs : List Char) (texts : List (List Char)) :
    ∃ tail, [','].intercalate ((c :: cs) :: texts) = c :: tail := by
  obtain _ | ⟨text, texts⟩ := texts
  · exact ⟨cs, List.intercalate_singleton⟩
  · exact ⟨_, List.intercalate_cons_cons⟩

/-- A value takes a step at least. -/
theorem Written.reads_of_succ (h : Written j)
    (hread : ∀ fuel rest, 2 * j.render.toList.length ≤ fuel + 1 → Ends rest →
      value? (fuel + 1) (j.render.toList ++ rest) = some (j, rest)) : Reads j := by
  intro fuel rest hfuel hrest
  obtain ⟨c, cs, hcs, -⟩ := h.exists_opens
  have hlength : 0 < j.render.toList.length := hcs ▸ Nat.zero_lt_succ _
  obtain ⟨fuel, rfl⟩ := Nat.exists_eq_succ_of_ne_zero (show fuel ≠ 0 by omega)
  exact hread fuel rest hfuel hrest

theorem Written.reads (h : Written j) : Reads j := by
  induction h with
  | null => exact Written.null.reads_of_succ fun _ _ _ _ => rfl
  | bool value => exact (Written.bool value).reads_of_succ fun _ _ _ _ => by cases value <;> rfl
  | integer value =>
    refine (Written.integer value).reads_of_succ fun fuel rest _ hrest => value?_of_number? ?_
    rw [render, number?_append hrest, number?_toString]
    rfl
  | real hliteral =>
    refine (Written.real hliteral).reads_of_succ fun fuel rest _ hrest => value?_of_number? ?_
    rw [render, number?_append hrest, hliteral]
    rfl
  | string value =>
    refine (Written.string value).reads_of_succ fun fuel rest _ _ => ?_
    obtain ⟨cs, hcs, hread⟩ := string?_renderString value
    rw [render, hcs]
    change (string? (cs ++ rest)).map _ = _
    rw [hread]
    rfl
  | @array items hitems ih =>
    refine (Written.array hitems).reads_of_succ fun fuel rest hfuel _ => ?_
    rw [toList_render_array, List.length_cons, List.length_append, List.length_singleton] at hfuel
    rw [toList_render_array, List.cons_append, List.append_assoc, List.singleton_append]
    obtain _ | ⟨item, items⟩ := items
    · rfl
    have hread := items?_intercalate ih (List.cons_ne_nil item items) [] rest (by omega : _ < fuel)
    obtain ⟨c, cs, hcs, hopens⟩ := (hitems item List.mem_cons_self).exists_opens
    obtain ⟨tail, htail⟩ := exists_intercalate_eq_cons c cs (items.map (·.render.toList))
    rw [List.map_cons, hcs, htail, List.cons_append] at hread ⊢
    rw [value?_array hopens, hread]
    rfl
  | @object members hnames hvalues ih =>
    refine (Written.object hnames hvalues).reads_of_succ fun fuel rest hfuel _ => ?_
    rw [toList_render_object, List.length_cons, List.length_append, List.length_singleton] at hfuel
    rw [toList_render_object, List.cons_append, List.append_assoc, List.singleton_append]
    obtain _ | ⟨member, members⟩ := members
    · rfl
    have hread := members?_intercalate ih (List.cons_ne_nil member members)
      (show (([] ++ _).map Prod.fst).Nodup from hnames) rest (by omega : _ < fuel)
    obtain ⟨name, hname, -⟩ := string?_renderString member.1
    obtain ⟨tail, htail⟩ := exists_intercalate_eq_cons '\x22'
      (name ++ ':' :: member.2.render.toList) (members.map memberText)
    rw [List.map_cons, memberText, hname, List.cons_append, htail, List.cons_append] at hread ⊢
    rw [value?_object, hread]
    rfl

/-- The text of a document is read back as the document. -/
theorem read?_render (h : Written j) : read? j.render = some j := by
  have hreads := h.reads (2 * j.render.toList.length + 2) [] (by omega) .nil
  rw [List.append_nil] at hreads
  rw [read?]
  simp only [hreads]
  rfl

end DepthFeed.Json

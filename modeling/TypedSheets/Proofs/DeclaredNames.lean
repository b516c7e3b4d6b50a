import TypedSheets.Proofs.DistinctKeys
import TypedSheets.Proofs.IdentifierWords

/-!
# What declared names stand for

A column finds its field by name, and a cell the member of an enumeration, in one pass over
the elements: the first one that is declared or generated under the name is taken.  So the name
of an element may stand for an element before it, if that one is generated under it.  Types are
looked up otherwise: for them, generated names give way to declared ones.

Whether an element can be generated under the declared name of another depends on the two
casings.  With names that are written in the casing of the sheet it cannot, except between
`ITEM_NAME` and `ItemName`: there `A_B` becomes `AB`, which is a name of its own.

## Main definitions

* `Casing.Writes` — that a name is written in a casing.
* `Casing.Confused` — the two pairs of casings that a name may be confused under.
* `Casing.Safe` — that no name of a list can become another one.

## Main results

* `Casing.exists_captured_iff`, `Casing.exists_captured_ident_iff` — **which casings confuse
  names.**
* `find?_named` — which element a pass over the elements takes.
* `Catalog.declaredNames_exact` — **what the names of fields and members stand for.**
-/

namespace TypedSheets

/-! ### Names under two casings -/

namespace Casing

variable {words : List String}

/-- That a name is written in a casing: it is the identifier of some words. -/
def Writes (casing : Casing) (name : String) : Prop :=
  ∃ words, (∀ word ∈ words, IsWord word) ∧ casing.join words = name

/-- Whether identifiers start with a capital. -/
def startsUpper : Casing → Bool
  | pascal | upperSnake => true
  | camel | lowerSnake => false

/-- The pairs of casings under which a name may be confused with another. -/
def Confused (source target : Casing) : Prop :=
  source ≠ target ∧ source.startsUpper = true ∧ target.startsUpper = true

instance (source target : Casing) : Decidable (Confused source target) :=
  inferInstanceAs (Decidable (_ ∧ _ ∧ _))

/-- The first letter of an identifier is a capital or small, by its casing. -/
theorem exists_head_join (casing : Casing) (h : ∀ word ∈ words, IsWord word) (hne : words ≠ []) :
    ∃ c rest, (casing.join words).toList = c :: rest ∧ c.isUpper = casing.startsUpper := by
  obtain ⟨word, more, rfl⟩ := List.exists_cons_of_ne_nil hne
  obtain ⟨hword, -⟩ := List.forall_mem_cons.mp h
  obtain ⟨c, cs, hcs, hlower⟩ := hword.exists_cons
  have hc : c.isUpper = false := (hword.2 c (by simp [hcs])).2
  -- the four casings are two ways of joining, with the case of letters changed after it
  have hsnake : ("_".intercalate (word :: more)).toList
      = c :: (cs ++ (more.map String.toList).flatMap ('_' :: ·)) := by
    rw [String.toList_intercalate, List.map_cons, ← List.cons_append, ← hcs]
    exact intercalate_cons _ _
  have hpascal : (joinPascal (word :: more)).toList
      = c.toUpper :: (cs ++ more.flatMap fun word => mapFirst Char.toUpper word.toList) := by
    rw [toList_joinPascal, List.flatMap_cons, hcs]
    rfl
  cases casing with
  | pascal => exact ⟨_, _, hpascal, isUpper_toUpper hlower⟩
  | camel =>
    refine ⟨c, cs ++ more.flatMap fun word => mapFirst Char.toUpper word.toList, ?_, hc⟩
    show (uncapitalized (joinPascal (word :: more))).toList = _
    rw [uncapitalized, String.toList_ofList, hpascal, mapFirst, toLower_toUpper hc]
  | upperSnake =>
    refine ⟨c.toUpper, (cs ++ (more.map String.toList).flatMap ('_' :: ·)).map Char.toUpper, ?_,
      isUpper_toUpper hlower⟩
    show (upper ("_".intercalate (word :: more))).toList = _
    rw [upper, String.toList_ofList, hsnake, List.map_cons]
  | lowerSnake => exact ⟨c, _, hsnake, hc⟩

theorem join_nil (casing : Casing) : casing.join [] = "" := by
  cases casing <;> rfl

theorem join_eq_empty_iff (casing : Casing) (h : ∀ word ∈ words, IsWord word) :
    casing.join words = "" ↔ words = [] := by
  refine ⟨fun hempty => ?_, fun hnil => by rw [hnil, join_nil]⟩
  by_contra hne
  obtain ⟨c, rest, hjoin, -⟩ := exists_head_join casing h hne
  simp [hempty] at hjoin

/-- A snake cased identifier of small letters is read alike under camel casing. -/
theorem words_camel_lowerSnake (h : ∀ word ∈ words, IsWord word) :
    camel.words (lowerSnake.join words) = words := by
  show pieces (markCapitals ("_".intercalate words).toList) = words
  rw [markCapitals_eq_self (not_isUpper_intercalate h)]
  exact words_join lowerSnake h

/-- **An identifier under two casings stands for the same words**, unless the two are
confused. -/
theorem words_eq_of_join_eq {source target : Casing} (hcasings : ¬ Confused source target)
    {words' : List String} (h : ∀ word ∈ words, IsWord word) (h' : ∀ word ∈ words', IsWord word)
    (heq : target.join words = source.join words') : words = words' := by
  by_cases hnil : words = []
  · rw [hnil, join_nil] at heq
    rw [hnil, (join_eq_empty_iff source h').mp heq.symm]
  have hnil' : words' ≠ [] := by
    rintro rfl
    rw [join_nil] at heq
    exact hnil ((join_eq_empty_iff target h).mp heq)
  obtain ⟨c, rest, hc, hupper⟩ := exists_head_join target h hnil
  obtain ⟨d, rest', hd, hupper'⟩ := exists_head_join source h' hnil'
  -- the two identifiers have the same first letter
  have hstarts : target.startsUpper = source.startsUpper := by
    rw [heq, hd] at hc
    rw [← hupper, ← hupper', (List.cons.inj hc).1]
  by_cases hsame : source = target
  · subst hsame
    rw [← words_join source h, heq, words_join source h']
  -- the two small casings are all that is left
  have hpair : source = camel ∧ target = lowerSnake ∨ source = lowerSnake ∧ target = camel := by
    revert hcasings hstarts hsame
    cases source <;> cases target <;> decide
  rcases hpair with ⟨rfl, rfl⟩ | ⟨rfl, rfl⟩
  · rw [← words_camel_lowerSnake h, heq, words_join camel h']
  · rw [← words_join camel h, heq, words_camel_lowerSnake h']

/-- That no name of a list can become another one: their casing is kept, or they are written in
it and the casings are not confused. -/
def Safe (source target : Casing) (names : List String) : Prop :=
  source = target ∨ ¬ Confused source target ∧ ∀ name ∈ names, source.Writes name

/-- A safe name that becomes one of the names stays as it is. -/
theorem Safe.eq_of_convert_eq {source target : Casing} {names : List String}
    (hsafe : Safe source target names) {a b : String} (ha : a ∈ names) (hb : b ∈ names)
    (h : source.convert target a = b) : a = b := by
  rcases hsafe with hsame | ⟨hcasings, hwrites⟩
  · rwa [convert_of_eq hsame] at h
  · obtain ⟨words, hwords, rfl⟩ := hwrites a ha
    obtain ⟨words', hwords', rfl⟩ := hwrites b hb
    rw [convert_join source target hwords] at h
    rw [words_eq_of_join_eq hcasings hwords hwords' h]

/-- Names that are written in a casing stay different in any other. -/
theorem Writes.eq_of_convert_eq {source target : Casing} {a b : String} (ha : source.Writes a)
    (hb : source.Writes b) (h : source.convert target a = source.convert target b) : a = b := by
  obtain ⟨words, hwords, rfl⟩ := ha
  obtain ⟨words', hwords', rfl⟩ := hb
  rw [convert_join source target hwords, convert_join source target hwords'] at h
  rw [← words_join target hwords, h, words_join target hwords']

/-- **Which casings confuse names**: between the two that start with capitals, a name may
become another name. -/
theorem exists_captured_iff {source target : Casing} :
    (∃ a b, source.Writes a ∧ source.Writes b ∧ a ≠ b ∧ source.convert target a = b) ↔
      Confused source target := by
  constructor
  · rintro ⟨a, b, ha, hb, hne, h⟩
    by_contra hcasings
    have hsafe : Safe source target [a, b] := Or.inr ⟨hcasings, by simp [ha, hb]⟩
    exact hne (hsafe.eq_of_convert_eq (by simp) (by simp) h)
  · intro h
    have hpair : source = pascal ∧ target = upperSnake ∨ source = upperSnake ∧ target = pascal := by
      revert h
      cases source <;> cases target <;> decide
    -- `AB` is one word in capitals, and two words whose first letters are
    rcases hpair with ⟨rfl, rfl⟩ | ⟨rfl, rfl⟩
    · exact ⟨"Ab", "AB", ⟨["ab"], by simp [IsWord], by decide⟩,
        ⟨["a", "b"], by simp [IsWord], by decide⟩, by decide, by decide⟩
    · exact ⟨"A_B", "AB", ⟨["a", "b"], by simp [IsWord], by decide⟩,
        ⟨["ab"], by simp [IsWord], by decide⟩, by decide, by decide⟩

/-- Any two casings confuse identifiers that need not be written in the first of them. -/
theorem exists_captured_ident_iff {source target : Casing} :
    (∃ a b, isIdent a = true ∧ isIdent b = true ∧ a ≠ b ∧ source.convert target a = b) ↔
      source ≠ target := by
  constructor
  · rintro ⟨a, b, -, -, hne, h⟩ rfl
    exact hne ((convert_of_eq rfl a).symm.trans h)
  · intro hne
    refine ⟨source.join ["a", "b"], target.join ["a", "b"], ?_, ?_, ?_, ?_⟩
    · cases source <;> decide
    · cases target <;> decide
    · revert hne
      cases source <;> cases target <;> decide
    · exact convert_join source target (by simp [IsWord])

end Casing

/-! ### A pass over elements -/

section Pass

variable {α : Type} {nameOf : α → String} {before after : List α} {x : α}
  (hnodup : ((before ++ x :: after).map nameOf).Nodup)

include hnodup

theorem name_ne_of_mem_before : ∀ earlier ∈ before, nameOf earlier ≠ nameOf x := by
  intro earlier hearlier
  rw [List.map_append, List.map_cons, List.nodup_append] at hnodup
  exact hnodup.2.2 _ (List.mem_map_of_mem hearlier) _ (List.mem_cons_self ..)

/-- **The element that a pass takes** for the name of one of them: the first one before it that
is generated under this name, else the element itself. -/
theorem find?_named {generated : α → String} :
    ((before ++ x :: after).find? fun y => nameOf y = nameOf x || generated y = nameOf x)
      = some ((before.find? fun y => generated y = nameOf x).getD x) := by
  have hbefore : (before.find? fun y => nameOf y = nameOf x || generated y = nameOf x)
      = before.find? fun y => generated y = nameOf x := by
    refine List.find?_congr fun y hy => ?_
    simp [name_ne_of_mem_before hnodup y hy]
  rw [List.find?_append, hbefore]
  cases before.find? fun y => generated y = nameOf x with
  | none => simp
  | some y => rfl

/-- If the names are safe, no element before is generated under the name. -/
theorem convert_ne_of_mem_before {source target : Casing}
    (hsafe : Casing.Safe source target ((before ++ x :: after).map nameOf)) :
    ∀ earlier ∈ before, source.convert target (nameOf earlier) ≠ nameOf x := by
  intro earlier hearlier hconvert
  refine name_ne_of_mem_before hnodup earlier hearlier (hsafe.eq_of_convert_eq ?_ ?_ hconvert)
  · exact List.mem_map_of_mem (List.mem_append_left _ hearlier)
  · exact List.mem_map_of_mem (by simp)

end Pass

/-! ### Names of members -/

/-- Texts of a table are trimmed. -/
theorem Table.trim_of_text? {table : Table} {row : Nat} {column text : String}
    (h : table.text? row column = some text) : Text.trim text = text := by
  rw [Table.text?] at h
  obtain ⟨raw, -, rfl⟩ := Option.map_eq_some_iff.mp h
  exact Text.trim_trim raw

/-- The members of an enumeration have different names, all of them trimmed. -/
theorem EnumDecl.names_of_read {dialect : Dialect} {view : View} {options : List String}
    {block : EnumDecl} (h : EnumDecl.read dialect view options = .ok block) :
    (block.members.map Member.name).Nodup ∧
      ∀ member ∈ block.members, Text.trim member.name = member.name := by
  rw [EnumDecl.read] at h
  obtain ⟨table, -, h⟩ := bind_eq_ok.mp h
  obtain ⟨members, hmembers, h⟩ := bind_eq_ok.mp h
  cases h
  obtain ⟨-, hnames, hnodup⟩ :=
    Table.readRows_named (fun _ _ _ _ _ hread => (Member.read_spec hread).1) _ hmembers
  refine ⟨hnodup, fun member hmember => ?_⟩
  obtain ⟨-, row, htext⟩ := hnames member hmember
  exact Table.trim_of_text? htext

theorem Schema.IsRead.names_of_enum {schema : Schema} (h : schema.IsRead) {block : Block}
    {decl : EnumDecl} (hblock : block ∈ schema.blocks) (hbody : block.body = .enum decl) :
    (decl.members.map Member.name).Nodup ∧
      ∀ member ∈ decl.members, Text.trim member.name = member.name := by
  obtain ⟨dialect, kind, view, options, hread⟩ := h.exists_read hblock
  rw [hbody, BlockContent.read.eq_def] at hread
  cases kind with
  | «enum» =>
    obtain ⟨found, hfound, heq⟩ := map_eq_ok.mp hread
    cases heq
    exact EnumDecl.names_of_read hfound
  | interface => cases hread
  | _ =>
    obtain ⟨found, -, heq⟩ := map_eq_ok.mp hread
    cases heq

namespace Catalog

variable {catalog : Catalog} {schema : Schema} {others : List Schema} {naming : NameStyle}

/-- An enumeration of the catalog is declared by this sheet or another one. -/
theorem exists_block_of_enum? (hcatalog : ofSchemas schema others naming = .ok catalog)
    {name : String} {decl : EnumDecl} (h : catalog.enum? name = some decl) :
    ∃ home ∈ schema :: others, ∃ block ∈ home.blocks, block.body = .enum decl := by
  obtain ⟨-, scope, hmade⟩ := madeIn_of_ofSchemas hcatalog
  have hmem := OrderedMap.mem_of_get? h
  rw [hmade.enums] at hmem
  obtain ⟨⟨key, declaration⟩, hdeclared, heq⟩ := List.mem_filterMap.mp hmem
  cases declaration with
  | record _ => cases heq
  | «enum» _ =>
    cases heq
    obtain ⟨home, hhome, block, hblock⟩ :=
      Schema.exists_of_sees? ((Scope.mem_declared_iff hmade.inScope).mp hdeclared)
    exact ⟨home, hhome, block, Schema.mem_of_declarations hblock⟩

/-! ### Names of fields and members -/

/-- The fields of a shape have different names, and are generated under one of two casings. -/
theorem names_of_mem_shapes (hcatalog : ofSchemas schema others naming = .ok catalog)
    (hread : ∀ home ∈ schema :: others, home.IsRead) {shape : Shape}
    (hshape : shape ∈ catalog.shapes) :
    (shape.fields.map Field.name).Nodup ∧
      ∃ target ∈ [naming.settings.publicName, naming.settings.recordField],
        ∀ field ∈ shape.fields, field.emitted = naming.casing.convert target field.name := by
  rcases exists_block_of_mem_shapes hcatalog hshape with hnil | ⟨home, hhome, block, hblock, heq⟩
  · rw [hnil]
    exact ⟨List.nodup_nil, naming.settings.publicName, by simp⟩
  · -- the shape comes from a block, label for label
    have hnames : shape.fields.map Field.name = block.body.keyNames := by
      have hfirst := congrArg (List.map Prod.fst) heq
      rw [Shape.labels, BlockContent.labels, List.map_map, List.map_map] at hfirst
      exact hfirst.trans (List.map_id _)
    refine ⟨hnames ▸ (hread home hhome).nodup_names hblock, ?_⟩
    -- the casing depends on the kind of the block alone
    have hlabel : ∀ field ∈ shape.fields, field.emitted = block.body.keyOf naming field.name := by
      intro field hfield
      have hmem : (field.name, field.emitted) ∈ block.body.labels naming :=
        heq ▸ List.mem_map.mpr ⟨field, hfield, rfl⟩
      obtain ⟨name, -, hpair⟩ := List.mem_map.mp hmem
      obtain ⟨rfl, hkey⟩ := Prod.mk.inj hpair
      exact hkey.symm
    cases hbody : block.body with
    | record _ => exact ⟨naming.settings.recordField, by simp, by rwa [hbody] at hlabel⟩
    | _ => exact ⟨naming.settings.publicName, by simp, by rwa [hbody] at hlabel⟩

/-- The field that a declared name stands for. -/
theorem field?_name (catalog : Catalog) {shape : Shape} {before after : List Field} {field : Field}
    (hnodup : (shape.fields.map Field.name).Nodup)
    (hfields : shape.fields = before ++ field :: after) :
    catalog.field? shape field.name
      = some ((before.find? fun earlier => earlier.emitted = field.name).getD field) := by
  rw [hfields] at hnodup
  rw [field?, Shape.field?, hfields, find?_named hnodup]
  rfl

/-- A declared name stands for its own field unless one before it is generated under it. -/
theorem field?_name_eq_iff (catalog : Catalog) {shape : Shape} {before after : List Field}
    {field : Field} (hnodup : (shape.fields.map Field.name).Nodup)
    (hfields : shape.fields = before ++ field :: after) :
    catalog.field? shape field.name = some field ↔
      ∀ earlier ∈ before, earlier.emitted ≠ field.name := by
  rw [field?_name catalog hnodup hfields, Option.some_inj]
  constructor
  · intro hown earlier hearlier hemitted
    obtain ⟨found, hfound⟩ : ∃ found,
        (before.find? fun earlier => earlier.emitted = field.name) = some found :=
      Option.isSome_iff_exists.mp
        (List.find?_isSome.mpr ⟨earlier, hearlier, decide_eq_true hemitted⟩)
    rw [hfound, Option.getD_some] at hown
    -- the field itself would stand before it, under the same name
    have hmem : field ∈ before := hown ▸ List.mem_of_find?_eq_some hfound
    exact name_ne_of_mem_before (hfields ▸ hnodup) field hmem rfl
  · intro hnone
    rw [List.find?_eq_none.mpr (by simpa using hnone), Option.getD_none]

/-- The value of a declared name of a member. -/
theorem ofEnumText?_name {name : String} {decl : EnumDecl} (hdecl : catalog.enum? name = some decl)
    (hnodup : (decl.members.map Member.name).Nodup) {before after : List Member} {member : Member}
    (hmembers : decl.members = before ++ member :: after)
    (htrim : Text.trim member.name = member.name) :
    catalog.ofEnumText? name member.name = some (catalog.memberValue
      ((before.find? fun earlier =>
        catalog.naming.enumMember earlier.name = member.name).getD member)) := by
  rw [hmembers] at hnodup
  rw [ofEnumText?, hdecl, Option.bind_eq_bind, Option.bind_some, htrim, hmembers]
  dsimp only
  rw [find?_named hnodup]
  rfl

/-- A declared name has the value of its own member unless the name changes and one before it is
generated under it. -/
theorem ofEnumText?_name_eq_iff {name : String} {decl : EnumDecl}
    (hdecl : catalog.enum? name = some decl) (hnodup : (decl.members.map Member.name).Nodup)
    {before after : List Member} {member : Member}
    (hmembers : decl.members = before ++ member :: after)
    (htrim : Text.trim member.name = member.name) :
    catalog.ofEnumText? name member.name = some (catalog.memberValue member) ↔
      catalog.naming.enumMember member.name = member.name ∨
        ∀ earlier ∈ before, catalog.naming.enumMember earlier.name ≠ member.name := by
  rw [ofEnumText?_name hdecl hnodup hmembers htrim, Option.some_inj]
  cases hfound : before.find? fun earlier =>
      catalog.naming.enumMember earlier.name = member.name with
  | none =>
    refine ⟨fun _ => Or.inr ?_, fun _ => rfl⟩
    simpa using List.find?_eq_none.mp hfound
  | some found =>
    -- the earlier member is taken, which has the same value only if the name does not change
    have hname : catalog.naming.enumMember found.name = member.name := by
      simpa using List.find?_some hfound
    rw [Option.getD_some, memberValue, memberValue, hname, Value.enum.injEq]
    constructor
    · exact fun h => Or.inl h.symm
    · rintro (h | h)
      · exact h.symm
      · exact absurd hname (h found (List.mem_of_find?_eq_some hfound))

/-- **What the declared names of fields and members stand for.**  In the catalog of sheets that
were read, the name of a field stands for the first field before it that is generated under
this name, else for the field itself; likewise for the members of an enumeration.  If no name
of the shape or of the enumeration can become another one, then each stands for its own
element.  Some identifier can become another one under any two casings, but among those that
are written in the first casing there is none, unless the two are confused. -/
theorem declaredNames_exact (hcatalog : ofSchemas schema others naming = .ok catalog)
    (hread : ∀ home ∈ schema :: others, home.IsRead) :
    (∀ shape ∈ catalog.shapes,
      (∀ before field after, shape.fields = before ++ field :: after →
        catalog.field? shape field.name
            = some ((before.find? fun earlier => earlier.emitted = field.name).getD field) ∧
          (catalog.field? shape field.name = some field ↔
            ∀ earlier ∈ before, earlier.emitted ≠ field.name)) ∧
      ((∀ target ∈ [naming.settings.publicName, naming.settings.recordField],
          Casing.Safe naming.casing target (shape.fields.map Field.name)) →
        ∀ field ∈ shape.fields, catalog.field? shape field.name = some field)) ∧
    (∀ name decl, catalog.enum? name = some decl →
      (∀ before member after, decl.members = before ++ member :: after →
        catalog.ofEnumText? name member.name = some (catalog.memberValue
            ((before.find? fun earlier =>
              naming.enumMember earlier.name = member.name).getD member)) ∧
          (catalog.ofEnumText? name member.name = some (catalog.memberValue member) ↔
            naming.enumMember member.name = member.name ∨
              ∀ earlier ∈ before, naming.enumMember earlier.name ≠ member.name)) ∧
      (Casing.Safe naming.casing naming.settings.enumMember (decl.members.map Member.name) →
        ∀ member ∈ decl.members,
          catalog.ofEnumText? name member.name = some (catalog.memberValue member))) ∧
    ∀ target,
      ((∃ a b, isIdent a = true ∧ isIdent b = true ∧ a ≠ b ∧
        naming.casing.convert target a = b) ↔ naming.casing ≠ target) ∧
      ((∃ a b, naming.casing.Writes a ∧ naming.casing.Writes b ∧ a ≠ b ∧
        naming.casing.convert target a = b) ↔ Casing.Confused naming.casing target) := by
  obtain ⟨rfl, -⟩ := madeIn_of_ofSchemas hcatalog
  refine ⟨?fields, ?members, fun target =>
    ⟨Casing.exists_captured_ident_iff, Casing.exists_captured_iff⟩⟩
  case fields =>
    intro shape hshape
    obtain ⟨hnodup, target, htarget, hemitted⟩ := names_of_mem_shapes hcatalog hread hshape
    refine ⟨fun before field after hfields => ⟨field?_name catalog hnodup hfields,
      field?_name_eq_iff catalog hnodup hfields⟩, fun hsafe field hfield => ?_⟩
    -- a safe name is generated for no earlier field
    obtain ⟨before, after, hfields⟩ := List.append_of_mem hfield
    refine (field?_name_eq_iff catalog hnodup hfields).mpr fun earlier hearlier => ?_
    rw [hemitted earlier (by simp [hfields, hearlier])]
    have hsafe := hsafe target htarget
    rw [hfields] at hnodup hsafe
    exact convert_ne_of_mem_before hnodup hsafe earlier hearlier
  case members =>
    intro name decl hdecl
    -- the enumeration was read from a block, so that its names are different and trimmed
    obtain ⟨home, hhome, block, hblock, hbody⟩ := exists_block_of_enum? hcatalog hdecl
    obtain ⟨hnodup, htrim⟩ := (hread home hhome).names_of_enum hblock hbody
    constructor
    · intro before member after hmembers
      have hmember : member ∈ decl.members := by simp [hmembers]
      exact ⟨ofEnumText?_name hdecl hnodup hmembers (htrim member hmember),
        ofEnumText?_name_eq_iff hdecl hnodup hmembers (htrim member hmember)⟩
    · intro hsafe member hmember
      obtain ⟨before, after, hmembers⟩ := List.append_of_mem hmember
      refine (ofEnumText?_name_eq_iff hdecl hnodup hmembers (htrim member hmember)).mpr (Or.inr ?_)
      rw [hmembers] at hnodup hsafe
      exact convert_ne_of_mem_before hnodup hsafe

end Catalog

/-! ### A name that stands for another element -/

namespace Initials

/-- Settings for sheets in upper snake casing; generated names are in Pascal casing. -/
def settings : Settings := { sheet := { casing := .upperSnake } }

/-- Two fields and two members of the same names, of which the first become `AB`. -/
def grid : Grid := ⟨#[
  #[some "[ENUM]", some "KIND"], #[some "NAME"], #[some "A_B"], #[some "AB"],
  #[some "[DESIGN]"], #[some "NAME", some "TYPE", some "IS_PRIMARY_KEY"],
  #[some "A_B", some "int", some "true"], #[some "AB", some "int"], #[some "KIND", some "KIND"],
  #[some "[NAME]"], #[some "A_B", some "AB", some "KIND"],
  #[some "[DATA]"], #[some "1", some "2", some "AB"]]⟩

/-- The member that a value is. -/
def memberName? : Value → Option String
  | .enum name => some name
  | _ => none

/-- The name `AB` stands for the field and the member that are declared as `A_B`, so the value
in the first column is lost, and the wrong member is written. -/
theorem name_of_another : ∃ schema, settings.readSchema "ITEM" grid = .ok schema ∧
    (∃ catalog, Catalog.ofSchemas schema [schema] settings.names = .ok catalog ∧
      (∃ shape ∈ catalog.shapes, ∃ field ∈ shape.fields, field.name = "AB" ∧
        catalog.field? shape "AB" ≠ some field) ∧
      ∃ decl, catalog.enum? "KIND" = some decl ∧ ∃ member ∈ decl.members, member.name = "AB" ∧
        catalog.ofEnumText? "KIND" "AB" ≠ some (catalog.memberValue member)) ∧
    ∃ output, settings.compileSheet schema grid [schema] = .ok output ∧
      output.data = some (Json.pretty (.arr [.obj
        [("AB", .int 2), ("Ab", .int 0), ("Kind", .str "AB")]])) := by
  obtain ⟨schema, hschema, hcatalog, houtput⟩ : ∃ schema,
      settings.readSchema "ITEM" grid = .ok schema ∧
        ((Catalog.ofSchemas schema [schema] settings.names).toOption.any fun catalog => decide
          ((∃ shape ∈ catalog.shapes, ∃ field ∈ shape.fields, field.name = "AB" ∧
            catalog.field? shape "AB" ≠ some field) ∧
          ∃ decl ∈ (catalog.enum? "KIND").toList, ∃ member ∈ decl.members, member.name = "AB" ∧
            (catalog.ofEnumText? "KIND" "AB").bind memberName?
              ≠ some (catalog.naming.enumMember member.name))) = true ∧
        ((settings.compileSheet schema grid [schema]).toOption.any fun output => decide
          (output.data = some (Json.pretty (.arr [.obj
            [("AB", .int 2), ("Ab", .int 0), ("Kind", .str "AB")]])))) = true :=
    exists_ok_of_decide _ (by decide +kernel)
  obtain ⟨catalog, hmade, hfield, decl, hdecl, member, hmember, hname, hvalue⟩ :=
    exists_ok_of_decide _ hcatalog
  refine ⟨schema, hschema, ⟨catalog, hmade, hfield, decl, Option.mem_toList.mp hdecl, member,
    hmember, hname, fun hown => hvalue ?_⟩, exists_ok_of_decide _ houtput⟩
  rw [hown]
  rfl

/-- A sheet in camel casing whose names are as close: here `aB` and `ab` become `AB` and `Ab`. -/
def small : Grid := ⟨#[
  #[some "[enum]", some "kind"], #[some "name"], #[some "aB"], #[some "ab"],
  #[some "[design]"], #[some "name", some "type", some "isPrimaryKey"],
  #[some "aB", some "int", some "true"], #[some "ab", some "int"],
  #[some "[name]"], #[some "aB", some "ab"], #[some "[data]"], #[some "1", some "2"]]⟩

/-- Every name stands for its own field and its own member. -/
theorem declaredNames_small : ∃ schema catalog,
    ({ sheet := { casing := .camel } } : Settings).readSchema "Item" small = .ok schema ∧
    Catalog.ofSchemas schema [schema] ⟨.camel, {}⟩ = .ok catalog ∧
    (∃ shape ∈ catalog.shapes, shape.fields.map Field.name = ["aB", "ab"] ∧
      ∀ field ∈ shape.fields, catalog.field? shape field.name = some field) ∧
    ∃ decl, catalog.enum? "kind" = some decl ∧ decl.members.map Member.name = ["aB", "ab"] ∧
      ∀ member ∈ decl.members,
        catalog.ofEnumText? "kind" member.name = some (catalog.memberValue member) := by
  obtain ⟨schema, hschema, hcatalog⟩ : ∃ schema,
      ({ sheet := { casing := .camel } } : Settings).readSchema "Item" small = .ok schema ∧
        ((Catalog.ofSchemas schema [schema] ⟨.camel, {}⟩).toOption.any fun catalog => decide
          ((∃ shape ∈ catalog.shapes, shape.fields.map Field.name = ["aB", "ab"]) ∧
            ∃ decl ∈ (catalog.enum? "kind").toList,
              decl.members.map Member.name = ["aB", "ab"])) = true :=
    exists_ok_of_decide _ (by decide +kernel)
  obtain ⟨catalog, hmade, ⟨shape, hshape, hnames⟩, decl, hdecl, hmembers⟩ :=
    exists_ok_of_decide _ hcatalog
  have hdecl := Option.mem_toList.mp hdecl
  have hwrites : ∀ name ∈ ["aB", "ab"], Casing.camel.Writes name := by
    simp only [List.forall_mem_cons, List.not_mem_nil, false_implies, implies_true, and_true]
    exact ⟨⟨["a", "b"], by simp [Casing.IsWord], by decide⟩,
      ["ab"], by simp [Casing.IsWord], by decide⟩
  have hread : ∀ home ∈ [schema, schema], home.IsRead := by
    simp [Settings.isRead_of_readSchema hschema]
  obtain ⟨hfields, henums, -⟩ := Catalog.declaredNames_exact hmade hread
  refine ⟨schema, catalog, hschema, hmade, ⟨shape, hshape, hnames, ?_⟩, decl, hdecl, hmembers, ?_⟩
  · refine (hfields shape hshape).2 fun target htarget => Or.inr ⟨?_, hnames ▸ hwrites⟩
    revert target
    decide
  · exact (henums "kind" decl hdecl).2 (Or.inr ⟨by decide, hmembers ▸ hwrites⟩)

end Initials
end TypedSheets

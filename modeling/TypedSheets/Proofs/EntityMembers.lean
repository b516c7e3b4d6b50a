import TypedSheets.Proofs.DeclaredNames
import TypedSheets.Proofs.MemberDeclarations

/-!
# Names of the members of an entity

The members of an entity are named by several rules.  The accessor of the key has a fixed name;
a constant has a public and a private name; so has a field that is a list, while any other
field has a public name only; and a field that refers to rows of a sheet has an accessor and a
cache, which are named by replacing the last `Id` of its two names, or by a word at their end.
The names of one block differ, but no rule looks at the names that another one gives.

With default naming, public names start with a capital and private ones with an underscore, so
the two never meet.  What is left are constants against fields, the key against both, accessors
against public names, and caches against private ones.  If references are named as in `OwnerId`,
then accessors and caches clash with nothing but an element of the name `OwnerReference`.

## Main definitions

* `Schema.publicMembers`, `Schema.privateMembers` — the members of a sheet, by declared names.
* `NameStyle.NamesReference` — that a field is named as in `OwnerId`.
* `Schema.MembersApart` — **that no two rules give the same name.**

## Main results

* `CSharp.memberNames_perm` — the entity of a sheet has these members.
* `NameStyle.accessor_cases`, `NameStyle.NamesReference.accessor_eq` — what an accessor is named.
* `Schema.membersApart_of_nodup`, `Schema.nodup_of_membersApart` — when names differ.
* `Schema.membersApart_iff` — when they do with references as in `OwnerId`.
* `Settings.compileSheet_memberNames` — **which sheets compile to entities without clashes.**
-/

namespace TypedSheets

/-! ### Members by declared names -/

namespace Schema

/-- The declared names of the constants. -/
def constantNames (schema : Schema) : List String :=
  (schema.constants?.getD []).map ConstantDecl.name

/-- The fields of the design, if there is one. -/
def designFields (schema : Schema) : List EntityField :=
  schema.design?.elim [] fun found => found.2.fields

/-- The declared names of constants and fields. -/
def elementNames (schema : Schema) : List String :=
  schema.constantNames ++ schema.designFields.map EntityField.name

/-- The declared names of what has a private name: constants, and fields that are lists. -/
def heldNames (schema : Schema) : List String :=
  schema.constantNames ++ (schema.designFields.filter fun field => field.type.isList).map
    EntityField.name

/-- The declared names of the fields that refer to rows of a sheet. -/
def referenceNames (schema : Schema) : List String :=
  (schema.designFields.filter fun field => field.reference.isSome).map EntityField.name

/-- The name of the accessor of the key, if there is a key. -/
def keyMember (naming : NameStyle) (schema : Schema) : List String :=
  if schema.design?.isSome then [naming.ofMember "Key"] else []

/-- The names of the public members. -/
def publicMembers (naming : NameStyle) (schema : Schema) : List String :=
  schema.elementNames.map naming.publicName ++ schema.keyMember naming ++
    schema.referenceNames.map fun name => naming.accessor (naming.publicName name)

/-- The names of the private members. -/
def privateMembers (naming : NameStyle) (schema : Schema) : List String :=
  schema.heldNames.map naming.privateName ++
    schema.referenceNames.map fun name => naming.accessor (naming.privateName name)

end Schema

namespace CSharp

variable {naming : NameStyle}

/-- The names of the members of a declared field. -/
def fieldNames (naming : NameStyle) (decl : EntityField) : List String :=
  let publicName := naming.publicName decl.name
  let privateName := naming.privateName decl.name
  (if decl.type.isList then [privateName, publicName] else [publicName]) ++
    if decl.reference.isSome then [naming.accessor privateName, naming.accessor publicName] else []

/-- Resolving a type keeps whether it is a list, -/
theorem isList_of_resolve {scope : Scope} {cell : Cell} {type : WrittenType}
    {resolved : ResolvedType} (h : scope.resolve cell type = .ok resolved) :
    resolved.isList = type.isList := by
  cases type with
  | scalar _ =>
    cases h
    rfl
  | list _ =>
    obtain ⟨_, -, rfl⟩ := map_eq_ok.mp h
    rfl
  | nullable _ =>
    obtain ⟨_, -, rfl⟩ := map_eq_ok.mp h
    rfl
  | named _ =>
    rw [Scope.resolve] at h
    split at h
    · cases h
      rfl
    · cases h
      rfl
    · cases h

/-- and so does a reference. -/
theorem isList_referTo (target : String) (type : ResolvedType) :
    (Catalog.referTo target type).isList = type.isList := by
  cases type <;> rfl

theorem names_rowMember {scope : Scope} {decl : EntityField} {field : Field}
    (h : Catalog.designField scope naming decl = .ok field) :
    (rowMember naming decl field).names = fieldNames naming decl := by
  obtain ⟨type, htype, h⟩ := bind_eq_ok.mp h
  cases h
  rw [RowMember.names, rowMember, fieldNames, ← isList_of_resolve htype]
  cases decl.reference with
  | none => rfl
  | some target =>
    dsimp only
    rw [isList_referTo]
    rfl

/-- The members of the entity of a sheet, by declared names. -/
theorem memberNames_entityOf {schema : Schema} {others : List Schema} {catalog : Catalog}
    (hcatalog : Catalog.ofSchemas schema others naming = .ok catalog) :
    (entityOf schema catalog (.ofNaming naming)).memberNames (.ofNaming naming)
      = (schema.constantNames.flatMap fun name =>
          [naming.privateName name, naming.publicName name]) ++
        (schema.keyMember naming ++ schema.designFields.flatMap (fieldNames naming)) := by
  obtain ⟨rfl, scope, hmade⟩ := Catalog.madeIn_of_ofSchemas hcatalog
  rw [Entity.memberNames, entityOf]
  congr 1
  · -- constants: two names for each of them, the private one first
    have hfields := Catalog.forall₂_of_constantShape hmade.constants
    rw [Schema.constantNames, List.flatMap_map]
    cases hdecls : schema.constants? with
    | none => rfl
    | some decls =>
      rw [hdecls] at hfields
      refine flatMap_zipWith_of_forall₂ hfields fun decl field hfield => ?_
      obtain ⟨type, -, hfield⟩ := bind_eq_ok.mp hfield
      cases hfield
      rfl
  · -- rows: the member for the key, then the names of each field of the design
    rw [Schema.keyMember, Schema.designFields]
    cases hdesign : schema.design? with
    | none => rfl
    | some found =>
      obtain ⟨shape, hshape⟩ := Catalog.exists_entityShape hmade.entity hdesign
      obtain ⟨block, design, hfound, hfields⟩ :=
        Catalog.exists_design_of_entityShape hmade.entity (Option.mem_def.mpr hshape)
      obtain rfl : found = (block, design) := by
        rw [hdesign] at hfound
        exact Option.some.inj hfound
      refine congrArg (_ :: ·) ?_
      show (List.zipWith (rowMember catalog.naming) design.fields
        (catalog.entity.getD default).fields).flatMap RowMember.names = _
      rw [hshape]
      exact flatMap_zipWith_of_forall₂ hfields fun decl field hfield => names_rowMember hfield

theorem flatMap_ite {α β : Type} (p : α → Bool) (f : α → β) (xs : List α) :
    (xs.flatMap fun x => if p x then [f x] else []) = (xs.filter p).map f := by
  induction xs with
  | nil => rfl
  | cons x xs ih =>
    rw [List.flatMap_cons, ih, List.filter_cons]
    split <;> rfl

/-- The members of declared fields: public names and accessors, then private names and caches. -/
theorem fieldNames_perm (naming : NameStyle) (fields : List EntityField) :
    (fields.flatMap (fieldNames naming)).Perm
      (fields.map (fun field => naming.publicName field.name) ++
        ((fields.filter fun field => field.reference.isSome).map fun field =>
          naming.accessor (naming.publicName field.name)) ++
        ((fields.filter fun field => field.type.isList).map fun field =>
          naming.privateName field.name) ++
        (fields.filter fun field => field.reference.isSome).map fun field =>
          naming.accessor (naming.privateName field.name)) := by
  have hfield : ∀ field ∈ fields, (fieldNames naming field).Perm
      (((([naming.publicName field.name] ++
        if field.reference.isSome then [naming.accessor (naming.publicName field.name)] else []) ++
        if field.type.isList then [naming.privateName field.name] else []) ++
        if field.reference.isSome then [naming.accessor (naming.privateName field.name)]
          else [])) := by
    intro field _
    rw [fieldNames, List.perm_iff_count]
    intro name
    cases field.reference.isSome <;> cases field.type.isList <;> simp [List.count_cons] <;> omega
  -- the four kinds of names are taken out of the list one after another, the last one first
  refine (List.Perm.flatMap_left fields hfield).trans ?_
  refine (List.flatMap_append_perm ..).symm.trans ?_
  refine List.Perm.append ?_ (by rw [flatMap_ite])
  refine (List.flatMap_append_perm ..).symm.trans ?_
  refine List.Perm.append ?_ (by rw [flatMap_ite])
  refine (List.flatMap_append_perm ..).symm.trans ?_
  rw [flatMap_ite, ← List.map_eq_flatMap]

/-- **The members of the entity of a sheet**: public ones and private ones. -/
theorem memberNames_perm {schema : Schema} {others : List Schema} {catalog : Catalog}
    (hcatalog : Catalog.ofSchemas schema others naming = .ok catalog) :
    ((entityOf schema catalog (.ofNaming naming)).memberNames (.ofNaming naming)).Perm
      (schema.publicMembers naming ++ schema.privateMembers naming) := by
  -- both sides are sums of the same lists, so counting spares moving them past each other
  rw [memberNames_entityOf hcatalog, List.perm_iff_count]
  intro name
  have hconstants := (List.flatMap_append_perm schema.constantNames
    (fun name => [naming.privateName name]) fun name => [naming.publicName name]).count_eq name
  have hfields := (fieldNames_perm naming schema.designFields).count_eq name
  simp only [List.singleton_append, ← List.map_eq_flatMap, List.count_append] at hconstants hfields
  simp only [Schema.publicMembers, Schema.privateMembers, Schema.elementNames, Schema.heldNames,
    Schema.referenceNames, List.map_append, List.map_map, List.count_append, Function.comp_def,
    ← hconstants, hfields]
  omega

end CSharp

/-! ### Names of accessors -/

namespace Casing

variable {words : List String}

theorem join_pascal_concat (words : List String) (word : String) :
    pascal.join (words ++ [word]) = pascal.join words ++ capitalized word := by
  show joinPascal _ = joinPascal _ ++ _
  rw [← String.toList_inj, String.toList_append, toList_joinPascal, toList_joinPascal,
    List.flatMap_append, List.flatMap_singleton, capitalized, String.toList_ofList]

theorem join_camel_concat (h : ∀ word ∈ words, IsWord word) (hne : words ≠ []) (word : String) :
    camel.join (words ++ [word]) = camel.join words ++ capitalized word := by
  obtain ⟨c, rest, hjoin, -⟩ := exists_head_join pascal h hne
  show uncapitalized (pascal.join (words ++ [word])) = uncapitalized (pascal.join words) ++ _
  rw [join_pascal_concat, ← String.toList_inj, String.toList_append, uncapitalized, uncapitalized,
    String.toList_ofList, String.toList_ofList, String.toList_append, hjoin]
  rfl

end Casing

namespace NameStyle

variable {naming : NameStyle}

theorem exists_of_replaceLast? {symbol word : List Char} : ∀ {cs replaced : List Char},
    replaceLast? symbol word cs = some replaced →
      ∃ before after, cs = before ++ symbol ++ after ∧ replaced = before ++ word ++ after := by
  intro cs
  induction cs with
  | nil =>
    intro replaced h
    cases h
  | cons c cs ih =>
    intro replaced h
    rw [replaceLast?] at h
    split at h
    · -- a later symbol is replaced, if there is one
      next rest hrest =>
      cases h
      obtain ⟨before, after, rfl, rfl⟩ := ih hrest
      exact ⟨c :: before, after, rfl, rfl⟩
    · split at h
      · -- else the one that starts here
        next hsymbol =>
        cases h
        obtain ⟨after, hafter⟩ := List.isPrefixOf_iff_prefix.mp hsymbol
        refine ⟨[], after, hafter.symm, ?_⟩
        rw [← hafter, List.drop_left]
        rfl
      · cases h

/-- **What an accessor is named**: a symbol in the name is replaced, or a word is added. -/
theorem accessor_cases (naming : NameStyle) (name : String) :
    (∃ before after,
      name.toList = before ++ naming.settings.referenceSymbol.toList ++ after ∧
      (naming.accessor name).toList
        = before ++ naming.settings.referenceWord.toList ++ after) ∨
    naming.accessor name = name ++ naming.settings.referenceWord := by
  rw [accessor]
  split
  · next replaced hreplaced =>
    left
    split at hreplaced
    · cases hreplaced
    · obtain ⟨before, after, hname, rfl⟩ := exists_of_replaceLast? hreplaced
      exact ⟨before, after, hname, String.toList_ofList⟩
  · exact Or.inr rfl

/-- An accessor is at least as long as the word that is put into it. -/
theorem length_accessor (naming : NameStyle) (name : String) :
    naming.settings.referenceWord.toList.length ≤ (naming.accessor name).toList.length := by
  rcases accessor_cases naming name with ⟨before, after, -, heq⟩ | heq
  · rw [heq, List.length_append, List.length_append]
    omega
  · rw [heq, String.toList_append, List.length_append]
    omega

theorem eq_of_publicName_eq {a b : String} (ha : naming.casing.Writes a)
    (hb : naming.casing.Writes b) (h : naming.publicName a = naming.publicName b) : a = b :=
  ha.eq_of_convert_eq hb h

theorem eq_of_privateName_eq {a b : String} (ha : naming.casing.Writes a)
    (hb : naming.casing.Writes b) (h : naming.privateName a = naming.privateName b) : a = b :=
  ha.eq_of_convert_eq hb ((String.append_right_inj _).mp h)

section Default

variable (hnaming : naming.settings = {})

include hnaming

/-- An accessor starts with an underscore if its field does. -/
theorem leads_accessor_iff (name : String) :
    Text.Leads '_' (naming.accessor name) ↔ Text.Leads '_' name := by
  have hsymbol : naming.settings.referenceSymbol = "Id" := by rw [hnaming]
  have hword : naming.settings.referenceWord = "Reference" := by rw [hnaming]
  -- what replaces the symbol starts with no underscore, and neither does the symbol
  rcases accessor_cases naming name with ⟨before, after, hname, heq⟩ | heq
  · rw [hsymbol] at hname
    rw [hword] at heq
    rw [Text.Leads, Text.Leads, hname, heq]
    cases before with
    | nil => simp
    | cons c before => simp
  · rw [heq, hword, Text.Leads, Text.Leads, String.toList_append]
    cases name.toList with
    | nil => simp
    | cons c rest => simp

theorem leads_privateName (name : String) : Text.Leads '_' (naming.privateName name) := by
  have hlead : naming.settings.privateLead = "_" := by rw [hnaming]
  rw [privateName, hlead]
  exact (Text.leads rfl).append _

theorem ofMember_key : naming.ofMember "Key" = "Key" := by
  rw [ofMember, hnaming]
  exact Casing.convert_of_eq rfl _

theorem accessor_ne_key (name : String) : naming.accessor name ≠ naming.ofMember "Key" := by
  intro h
  have hlength := length_accessor naming name
  rw [h, ofMember_key hnaming, hnaming] at hlength
  revert hlength
  decide

theorem publicName_join {words : List String} (hwords : ∀ word ∈ words, Casing.IsWord word) :
    naming.publicName (naming.casing.join words) = Casing.pascal.join words := by
  rw [publicName, hnaming]
  exact Casing.convert_join _ _ hwords

theorem privateName_join {words : List String} (hwords : ∀ word ∈ words, Casing.IsWord word) :
    naming.privateName (naming.casing.join words) = "_" ++ Casing.camel.join words := by
  rw [privateName, hnaming, Casing.convert_join _ _ hwords]

/-- Public names of written names start with a capital. -/
theorem not_leads_publicName {name : String} (h : naming.casing.Writes name) :
    ¬ Text.Leads '_' (naming.publicName name) := by
  obtain ⟨words, hwords, rfl⟩ := h
  rw [publicName_join hnaming hwords, Text.Leads]
  by_cases hnil : words = []
  · rw [hnil, Casing.join_nil]
    simp
  · obtain ⟨c, rest, hjoin, hupper⟩ := Casing.exists_head_join .pascal hwords hnil
    rw [hjoin, List.head?_cons, Option.some_inj]
    rintro rfl
    exact absurd hupper (by decide)

/-- The symbol at the end of a name is the one that is replaced. -/
theorem accessor_append (text : String) :
    naming.accessor (text ++ "Id") = text ++ "Reference" := by
  have hreplace : ∀ cs : List Char, replaceLast? "Id".toList "Reference".toList
      (cs ++ "Id".toList) = some (cs ++ "Reference".toList) := by
    intro cs
    induction cs with
    | nil => rfl
    | cons c cs ih => rw [List.cons_append, replaceLast?, ih]; rfl
  have hsymbol : naming.settings.referenceSymbol = "Id" := by rw [hnaming]
  have hword : naming.settings.referenceWord = "Reference" := by rw [hnaming]
  have hname := hreplace text.toList
  rw [← String.toList_append] at hname
  simp only [accessor, hsymbol, hword, hname]
  rw [← String.toList_append, if_neg (by decide)]
  exact String.ofList_toList

end Default

/-- That a field is named as references are, such as `OwnerId`. -/
def NamesReference (naming : NameStyle) (name : String) : Prop :=
  ∃ words, words ≠ [] ∧ (∀ word ∈ words, Casing.IsWord word) ∧
    naming.casing.join (words ++ ["id"]) = name

/-- What a reference leads to, such as `OwnerReference` for `OwnerId`. -/
def referenceName (naming : NameStyle) (name : String) : String :=
  naming.casing.join ((naming.casing.words name).dropLast ++ ["reference"])

namespace NamesReference

variable {name : String}

theorem isWord_append {words : List String} (hwords : ∀ word ∈ words, Casing.IsWord word)
    {word : String} (hword : Casing.IsWord word) : ∀ w ∈ words ++ [word], Casing.IsWord w :=
  List.forall_mem_append.mpr ⟨hwords, by simpa using hword⟩

theorem isWord_id : Casing.IsWord "id" := by simp [Casing.IsWord]

theorem isWord_reference : Casing.IsWord "reference" := by simp [Casing.IsWord]

/-- What a reference leads to, by its words. -/
theorem exists_words (h : naming.NamesReference name) :
    ∃ words, words ≠ [] ∧ (∀ word ∈ words, Casing.IsWord word) ∧
      name = naming.casing.join (words ++ ["id"]) ∧
      naming.referenceName name = naming.casing.join (words ++ ["reference"]) := by
  obtain ⟨words, hne, hwords, rfl⟩ := h
  refine ⟨words, hne, hwords, rfl, ?_⟩
  rw [referenceName, Casing.words_join _ (isWord_append hwords isWord_id), List.dropLast_concat]

theorem writes (h : naming.NamesReference name) : naming.casing.Writes name := by
  obtain ⟨words, -, hwords, rfl⟩ := h
  exact ⟨_, isWord_append hwords isWord_id, rfl⟩

theorem writes_referenceName (h : naming.NamesReference name) :
    naming.casing.Writes (naming.referenceName name) := by
  obtain ⟨words, -, hwords, -, heq⟩ := h.exists_words
  exact ⟨_, isWord_append hwords isWord_reference, heq.symm⟩

/-- Different references lead to different names. -/
theorem eq_of_referenceName_eq {other : String} (h : naming.NamesReference name)
    (hother : naming.NamesReference other)
    (heq : naming.referenceName name = naming.referenceName other) : name = other := by
  obtain ⟨words, -, hwords, hname, hreference⟩ := h.exists_words
  obtain ⟨words', -, hwords', hname', hreference'⟩ := hother.exists_words
  have hjoin := congrArg naming.casing.words (hreference.symm.trans (heq.trans hreference'))
  rw [Casing.words_join _ (isWord_append hwords isWord_reference),
    Casing.words_join _ (isWord_append hwords' isWord_reference)] at hjoin
  rw [hname, hname', List.append_cancel_right hjoin]

/-- **The accessor and the cache of a reference** are what the name that it leads to would be
generated as. -/
theorem accessor_eq (hnaming : naming.settings = {}) (h : naming.NamesReference name) :
    naming.accessor (naming.publicName name) = naming.publicName (naming.referenceName name) ∧
      naming.accessor (naming.privateName name)
        = naming.privateName (naming.referenceName name) := by
  obtain ⟨words, hne, hwords, rfl, heq⟩ := h.exists_words
  -- the last word of the name is the symbol, so replacing it is exchanging the word
  have hid : Casing.capitalized "id" = "Id" := by decide
  have hreference : Casing.capitalized "reference" = "Reference" := by decide
  have hids := isWord_append hwords isWord_id
  have hreferences := isWord_append hwords isWord_reference
  rw [heq]
  constructor
  · rw [publicName_join hnaming hids, publicName_join hnaming hreferences,
      Casing.join_pascal_concat, Casing.join_pascal_concat, hid, hreference,
      accessor_append hnaming]
  · rw [privateName_join hnaming hids, privateName_join hnaming hreferences,
      Casing.join_camel_concat hwords hne, Casing.join_camel_concat hwords hne, hid, hreference,
      ← String.append_assoc, ← String.append_assoc, accessor_append hnaming]

section Rule

variable {rule : String → String}
  (hrule : ∀ {a b}, naming.casing.Writes a → naming.casing.Writes b → rule a = rule b → a = b)
  (haccessor : ∀ {name}, naming.NamesReference name →
    naming.accessor (rule name) = rule (naming.referenceName name))

include hrule haccessor

/-- Under a rule that keeps names apart, so are the accessors of references. -/
theorem eq_of_accessor_eq {other : String} (h : naming.NamesReference name)
    (hother : naming.NamesReference other)
    (heq : naming.accessor (rule name) = naming.accessor (rule other)) : name = other := by
  rw [haccessor h, haccessor hother] at heq
  exact h.eq_of_referenceName_eq hother
    (hrule h.writes_referenceName hother.writes_referenceName heq)

/-- Only what a reference leads to is named like its accessor. -/
theorem eq_referenceName_of_eq_accessor {reference : String} (h : naming.NamesReference reference)
    (hwrites : naming.casing.Writes name) (heq : rule name = naming.accessor (rule reference)) :
    name = naming.referenceName reference := by
  rw [haccessor h] at heq
  exact hrule hwrites h.writes_referenceName heq

end Rule

end NamesReference

end NameStyle

/-! ### Names that are apart -/

namespace Schema

/-- That no two rules give the same name to members of the entity of a sheet. -/
structure MembersApart (naming : NameStyle) (schema : Schema) : Prop where
  /-- Constants are not named like fields. -/
  elements : ∀ a ∈ schema.constantNames, ∀ b ∈ schema.designFields.map EntityField.name,
    naming.publicName a ≠ naming.publicName b
  /-- Nothing is named like the key. -/
  key : ∀ key ∈ schema.keyMember naming, ∀ name ∈ schema.elementNames,
    naming.publicName name ≠ key
  /-- Accessors are named like nothing else, -/
  accessors : (schema.referenceNames.map fun name =>
    naming.accessor (naming.publicName name)).Nodup
  accessor : ∀ reference ∈ schema.referenceNames, ∀ name ∈ schema.elementNames,
    naming.publicName name ≠ naming.accessor (naming.publicName reference)
  /-- and neither are caches. -/
  caches : (schema.referenceNames.map fun name =>
    naming.accessor (naming.privateName name)).Nodup
  cache : ∀ reference ∈ schema.referenceNames, ∀ name ∈ schema.heldNames,
    naming.privateName name ≠ naming.accessor (naming.privateName reference)

variable {naming : NameStyle} {schema : Schema}

/-- Different names are apart, whatever the naming. -/
theorem membersApart_of_nodup
    (h : (schema.publicMembers naming ++ schema.privateMembers naming).Nodup) :
    schema.MembersApart naming := by
  -- a list without repetitions has parts without repetitions that have nothing in common
  obtain ⟨hpublic, hprivate, -⟩ := List.nodup_append.mp h
  obtain ⟨hbeside, haccessors, haccessor⟩ := List.nodup_append.mp hpublic
  obtain ⟨helements, -, hkey⟩ := List.nodup_append.mp hbeside
  obtain ⟨-, hcaches, hcache⟩ := List.nodup_append.mp hprivate
  rw [elementNames, List.map_append] at helements
  obtain ⟨-, -, helements⟩ := List.nodup_append.mp helements
  exact {
    elements := fun a ha b hb =>
      helements _ (List.mem_map_of_mem ha) _ (List.mem_map_of_mem hb)
    key := fun key hmem name hname => hkey _ (List.mem_map_of_mem hname) _ hmem
    accessors := haccessors
    accessor := fun reference hreference name hname =>
      haccessor _ (List.mem_append_left _ (List.mem_map_of_mem hname)) _
        (List.mem_map.mpr ⟨reference, hreference, rfl⟩)
    caches := hcaches
    cache := fun reference hreference name hname =>
      hcache _ (List.mem_map_of_mem hname) _ (List.mem_map.mpr ⟨reference, hreference, rfl⟩) }

theorem IsRead.nodup_constantNames (hread : schema.IsRead) : schema.constantNames.Nodup := by
  rw [constantNames]
  cases hfields : schema.constants? with
  | none => exact List.nodup_nil
  | some fields =>
    obtain ⟨block, hmem, hbody⟩ := mem_of_constants? hfields
    have hnodup := hread.nodup_names hmem
    rw [hbody] at hnodup
    exact hnodup

theorem IsRead.nodup_designFields (hread : schema.IsRead) :
    (schema.designFields.map EntityField.name).Nodup := by
  rw [designFields]
  cases hdesign : schema.design? with
  | none => exact List.nodup_nil
  | some found =>
    obtain ⟨hmem, hbody⟩ := mem_of_design? hdesign
    have hnodup := hread.nodup_names hmem
    rw [hbody] at hnodup
    exact hnodup

theorem eq_of_mem_keyMember {key : String} (h : key ∈ schema.keyMember naming) :
    key = naming.ofMember "Key" := by
  rw [keyMember] at h
  split at h
  · exact List.mem_singleton.mp h
  · cases h

theorem heldNames_sublist (schema : Schema) : schema.heldNames.Sublist schema.elementNames :=
  List.Sublist.append_left (List.filter_sublist.map _) _

section Default

variable (hnaming : naming.settings = {})
  (hwrites : ∀ name ∈ schema.elementNames, naming.casing.Writes name)

include hnaming hwrites

/-- With default naming, public names never are private ones. -/
theorem publicMembers_ne_privateMembers :
    ∀ a ∈ schema.publicMembers naming, ∀ b ∈ schema.privateMembers naming, a ≠ b := by
  have hreference : ∀ name ∈ schema.referenceNames, name ∈ schema.elementNames := by
    intro name hname
    obtain ⟨field, hfield, rfl⟩ := List.mem_map.mp hname
    exact List.mem_append_right _ (List.mem_map_of_mem (List.mem_filter.mp hfield).1)
  -- the underscore tells them apart: private names start with it, public ones do not
  have hpublic : ∀ a ∈ schema.publicMembers naming, ¬ Text.Leads '_' a := by
    intro a ha
    rcases List.mem_append.mp ha with ha | ha
    · rcases List.mem_append.mp ha with ha | ha
      · obtain ⟨name, hname, rfl⟩ := List.mem_map.mp ha
        exact NameStyle.not_leads_publicName hnaming (hwrites name hname)
      · rw [eq_of_mem_keyMember ha, NameStyle.ofMember_key hnaming]
        decide
    · obtain ⟨name, hname, rfl⟩ := List.mem_map.mp ha
      rw [NameStyle.leads_accessor_iff hnaming]
      exact NameStyle.not_leads_publicName hnaming (hwrites name (hreference name hname))
  have hprivate : ∀ b ∈ schema.privateMembers naming, Text.Leads '_' b := by
    intro b hb
    rcases List.mem_append.mp hb with hb | hb
    · obtain ⟨name, -, rfl⟩ := List.mem_map.mp hb
      exact NameStyle.leads_privateName hnaming name
    · obtain ⟨name, -, rfl⟩ := List.mem_map.mp hb
      exact (NameStyle.leads_accessor_iff hnaming _).mpr (NameStyle.leads_privateName hnaming name)
  rintro a ha b hb rfl
  exact hpublic a ha (hprivate a hb)

/-- **Names that are apart are different** with default naming, if they are written in the
casing of the sheet. -/
theorem nodup_of_membersApart (hread : schema.IsRead) (h : schema.MembersApart naming) :
    (schema.publicMembers naming ++ schema.privateMembers naming).Nodup := by
  have helements : schema.elementNames.Nodup :=
    List.nodup_append.mpr ⟨hread.nodup_constantNames, hread.nodup_designFields,
      fun a ha b hb heq => h.elements a ha b hb (congrArg naming.publicName heq)⟩
  have hheld := schema.heldNames_sublist
  refine List.nodup_append.mpr ⟨?publics, ?privates,
    publicMembers_ne_privateMembers hnaming hwrites⟩
  case publics =>
    refine List.nodup_append.mpr ⟨List.nodup_append.mpr ⟨?_, ?_, ?_⟩, h.accessors, ?_⟩
    · exact helements.map_on fun a ha b hb =>
        NameStyle.eq_of_publicName_eq (hwrites a ha) (hwrites b hb)
    · rw [keyMember]
      split <;> simp
    · intro a ha key hkey
      obtain ⟨name, hname, rfl⟩ := List.mem_map.mp ha
      exact h.key key hkey name hname
    · intro a ha b hb
      obtain ⟨reference, hreference, rfl⟩ := List.mem_map.mp hb
      rcases List.mem_append.mp ha with ha | ha
      · obtain ⟨name, hname, rfl⟩ := List.mem_map.mp ha
        exact h.accessor reference hreference name hname
      · rw [eq_of_mem_keyMember ha]
        exact (NameStyle.accessor_ne_key hnaming _).symm
  case privates =>
    -- lists are some of the fields, so what holds of all elements holds of what has a private name
    refine List.nodup_append.mpr ⟨?_, h.caches, ?_⟩
    · exact (hheld.nodup helements).map_on fun a ha b hb =>
        NameStyle.eq_of_privateName_eq (hwrites a (hheld.subset ha)) (hwrites b (hheld.subset hb))
    · intro a ha b hb
      obtain ⟨name, hname, rfl⟩ := List.mem_map.mp ha
      obtain ⟨reference, hreference, rfl⟩ := List.mem_map.mp hb
      exact h.cache reference hreference name hname

/-- **When references are named as in `OwnerId`**, names are apart if constants and fields have
different names, nothing is named `Key`, and nothing is named as in `OwnerReference`. -/
theorem membersApart_iff (hread : schema.IsRead)
    (hids : ∀ name ∈ schema.referenceNames, naming.NamesReference name) :
    schema.MembersApart naming ↔
      (∀ name ∈ schema.constantNames, name ∉ schema.designFields.map EntityField.name) ∧
      (∀ key ∈ schema.keyMember naming, ∀ name ∈ schema.elementNames,
        naming.publicName name ≠ key) ∧
      ∀ name ∈ schema.referenceNames, naming.referenceName name ∉ schema.elementNames := by
  have hreferences : schema.referenceNames.Nodup :=
    (List.filter_sublist.map EntityField.name).nodup hread.nodup_designFields
  constructor
  · intro h
    refine ⟨fun name hname hfield => h.elements name hname name hfield rfl, h.key, ?_⟩
    intro name hname hmem
    exact h.accessor name hname _ hmem ((hids name hname).accessor_eq hnaming).1.symm
  · rintro ⟨helements, hkey, hreference⟩
    have hne : ∀ reference ∈ schema.referenceNames, ∀ name ∈ schema.elementNames,
        name ≠ naming.referenceName reference := by
      rintro reference hmem name hname rfl
      exact hreference reference hmem hname
    -- accessors and caches are two rules of the same kind
    have hrule : ∀ rule : String → String,
        (∀ {a b}, naming.casing.Writes a → naming.casing.Writes b → rule a = rule b → a = b) →
        (∀ {name}, naming.NamesReference name →
          naming.accessor (rule name) = rule (naming.referenceName name)) →
        (schema.referenceNames.map fun name => naming.accessor (rule name)).Nodup ∧
          ∀ reference ∈ schema.referenceNames, ∀ name ∈ schema.elementNames,
            rule name ≠ naming.accessor (rule reference) := by
      intro rule hrule haccessor
      refine ⟨hreferences.map_on fun a ha b hb => (hids a ha).eq_of_accessor_eq hrule haccessor
        (hids b hb), fun reference hmem name hname heq => hne reference hmem name hname ?_⟩
      exact (hids reference hmem).eq_referenceName_of_eq_accessor hrule haccessor
        (hwrites name hname) heq
    obtain ⟨haccessors, haccessor⟩ := hrule naming.publicName NameStyle.eq_of_publicName_eq
      fun h => (h.accessor_eq hnaming).1
    obtain ⟨hcaches, hcache⟩ := hrule naming.privateName NameStyle.eq_of_privateName_eq
      fun h => (h.accessor_eq hnaming).2
    exact {
      elements := fun a ha b hb heq => by
        have hwritten := hwrites b (List.mem_append_right _ hb)
        obtain rfl := NameStyle.eq_of_publicName_eq (hwrites a (List.mem_append_left _ ha))
          hwritten heq
        exact helements a ha hb
      key := hkey
      accessors := haccessors
      accessor := haccessor
      caches := hcaches
      cache := fun reference hmem name hname =>
        hcache reference hmem name (schema.heldNames_sublist.subset hname) }

end Default

end Schema

/-- **Which sheets compile to entities without clashes**, with default naming.  The code of the
entity of a sheet declares members under certain names.  If these names are different, then no
two rules give the same name; the converse holds if constants and fields are named in the
casing of the sheet.  If moreover the names of references end as in `OwnerId`, then it is enough
that constants and fields have different names, that nothing is named `Key`, and nothing as in
`OwnerReference`. -/
theorem Settings.compileSheet_memberNames {settings : Settings} {schema : Schema} {grid : Grid}
    {schemas : List Schema} {output : SheetOutput} (hnaming : settings.naming = {})
    (hread : schema.IsRead) (h : settings.compileSheet schema grid schemas = .ok output) :
    ∃ catalog, Catalog.ofSchemas schema schemas settings.names = .ok catalog ∧
      output.code = CSharp.sheetFile schema catalog settings.platforms ∧
      ∀ entity, (CSharp.unitOf schema catalog settings.platforms).entity = some entity →
        let names := CSharp.LoaderNames.ofNaming settings.names
        (∃ header body, entity.code names
            = CSharp.Code.summaryLines schema.description? ++ [CSharp.Code.scope header body] ∧
          List.Forall₂ CSharp.DeclaresMember (entity.memberNames names)
            (body.filter CSharp.Code.isMember)) ∧
        ((entity.memberNames names).Nodup → schema.MembersApart settings.names) ∧
        ((∀ name ∈ schema.elementNames, settings.sheet.casing.Writes name) →
          ((entity.memberNames names).Nodup ↔ schema.MembersApart settings.names) ∧
          ((∀ name ∈ schema.referenceNames, settings.names.NamesReference name) →
            ((entity.memberNames names).Nodup ↔
              (∀ name ∈ schema.constantNames,
                name ∉ schema.designFields.map EntityField.name) ∧
              (∀ key ∈ schema.keyMember settings.names, ∀ name ∈ schema.elementNames,
                settings.names.publicName name ≠ key) ∧
              ∀ name ∈ schema.referenceNames,
                settings.names.referenceName name ∉ schema.elementNames))) := by
  obtain ⟨dialect, catalog, values, -, hcatalog, -, rfl⟩ := compileSheet_eq_ok.mp h
  obtain ⟨hstyle, -⟩ := Catalog.madeIn_of_ofSchemas hcatalog
  refine ⟨catalog, hcatalog, rfl, fun entity hentity => ?_⟩
  obtain rfl : CSharp.entityOf schema catalog (.ofNaming settings.names) = entity := by
    rw [CSharp.unitOf, hstyle] at hentity
    split at hentity
    · exact Option.some.inj hentity
    · cases hentity
  have hdefault : settings.names.settings = {} := hnaming
  -- repetitions do not depend on the order in which the members are declared
  have hnodup := (CSharp.memberNames_perm hcatalog).nodup_iff
  have happart (hwrites : ∀ name ∈ schema.elementNames, settings.sheet.casing.Writes name) :
      ((CSharp.entityOf schema catalog (.ofNaming settings.names)).memberNames
        (.ofNaming settings.names)).Nodup ↔ schema.MembersApart settings.names := by
    rw [hnodup]
    exact ⟨Schema.membersApart_of_nodup, Schema.nodup_of_membersApart hdefault hwrites hread⟩
  refine ⟨CSharp.declaresMembers_entityOf schema catalog _,
    fun h => Schema.membersApart_of_nodup (hnodup.mp h), fun hwrites => ⟨happart hwrites, ?_⟩⟩
  intro hids
  rw [happart hwrites, Schema.membersApart_iff hdefault hwrites hread hids]

/-! ### Members that clash -/

namespace Owners

/-- That a sheet compiles, under default settings, to an entity with members of some names. -/
def Emits (grid : Grid) (members : List String) : Prop :=
  ∃ schema output catalog entity, ({} : Settings).readSchema "Item" grid = .ok schema ∧
    ({} : Settings).compileSheet schema grid [schema] = .ok output ∧
    Catalog.ofSchemas schema [schema] ({} : Settings).names = .ok catalog ∧
    (CSharp.unitOf schema catalog []).entity = some entity ∧
    entity.memberNames (.ofNaming ({} : Settings).names) = members

theorem emits_of_decide {grid : Grid} {members : List String}
    (h : ((({} : Settings).readSchema "Item" grid).toOption.any fun schema => decide
      (((({} : Settings).compileSheet schema grid [schema]).toOption.any fun _ => decide True)
          = true ∧
        ((Catalog.ofSchemas schema [schema] ({} : Settings).names).toOption.any fun catalog =>
          decide (∃ entity ∈ (CSharp.unitOf schema catalog []).entity.toList,
            entity.memberNames (.ofNaming ({} : Settings).names) = members)) = true)) = true) :
    Emits grid members := by
  obtain ⟨schema, hschema, houtput, hcatalog⟩ := exists_ok_of_decide _ h
  obtain ⟨output, houtput, -⟩ := exists_ok_of_decide _ houtput
  obtain ⟨catalog, hmade, entity, hentity, hmembers⟩ := exists_ok_of_decide _ hcatalog
  exact ⟨schema, output, catalog, entity, hschema, houtput, hmade, Option.mem_toList.mp hentity,
    hmembers⟩

/-- A field with the name of the key. -/
def keyed : Grid := ⟨#[
  #[some "[Design]"], #[some "Name", some "Type", some "IsPrimaryKey"],
  #[some "Key", some "int", some "true"],
  #[some "[Name]"], #[some "Key"], #[some "[Data]"], #[some "1"]]⟩

/-- A constant and a field of one name. -/
def shared : Grid := ⟨#[
  #[some "[Constant]"], #[some "Name", some "Type", some "Value"],
  #[some "Limit", some "int", some "3"],
  #[some "[Design]"], #[some "Name", some "Type", some "IsPrimaryKey"],
  #[some "Id", some "int", some "true"], #[some "Limit", some "int"],
  #[some "[Name]"], #[some "Id", some "Limit"], #[some "[Data]"], #[some "1", some "2"]]⟩

/-- Two references, of which only one is named as references are. -/
def owners : Grid := ⟨#[
  #[some "[Design]"], #[some "Name", some "Type", some "IsPrimaryKey", some "Reference"],
  #[some "Id", some "int", some "true"], #[some "OwnerId", some "int", none, some "Item"],
  #[some "Owner", some "int", none, some "Item"],
  #[some "[Name]"], #[some "Id", some "OwnerId", some "Owner"],
  #[some "[Data]"], #[some "1", some "1", some "1"]]⟩

/-- These sheets compile, but each of the entities has a name twice. -/
theorem members_clash :
    Emits keyed ["Key", "Key"] ∧
    Emits shared ["_limit", "Limit", "Key", "Id", "Limit"] ∧
    Emits owners ["Key", "Id", "OwnerId", "_ownerReference", "OwnerReference", "Owner",
      "_ownerReference", "OwnerReference"] ∧
    ¬ ["Key", "Key"].Nodup ∧ ¬ ["_limit", "Limit", "Key", "Id", "Limit"].Nodup ∧
    ¬ ["Key", "Id", "OwnerId", "_ownerReference", "OwnerReference", "Owner", "_ownerReference",
      "OwnerReference"].Nodup := by
  refine ⟨emits_of_decide ?_, emits_of_decide ?_, emits_of_decide ?_, by decide, by decide,
    by decide⟩
  · decide +kernel
  · decide +kernel
  · decide +kernel

/-- A sheet with a constant, a list and a reference. -/
def apart : Grid := ⟨#[
  #[some "[Constant]"], #[some "Name", some "Type", some "Value"],
  #[some "Limit", some "int", some "3"],
  #[some "[Design]"], #[some "Name", some "Type", some "IsPrimaryKey", some "Reference"],
  #[some "Id", some "int", some "true"], #[some "OwnerId", some "int", none, some "Item"],
  #[some "Tags", some "List<int>"],
  #[some "[Name]"], #[some "Id", some "OwnerId"], #[some "[Data]"], #[some "1", some "1"]]⟩

/-- Its entity has no name twice. -/
theorem memberNames_apart : ∃ schema output catalog entity,
    ({} : Settings).readSchema "Item" apart = .ok schema ∧
    ({} : Settings).compileSheet schema apart [schema] = .ok output ∧
    Catalog.ofSchemas schema [schema] ({} : Settings).names = .ok catalog ∧
    (CSharp.unitOf schema catalog []).entity = some entity ∧
    schema.referenceNames = ["OwnerId"] ∧
    (entity.memberNames (.ofNaming ({} : Settings).names)).Nodup := by
  obtain ⟨schema, hschema, helements, hreferences, hconstants, hkey, hapart, hcompiles⟩ :
      ∃ schema, ({} : Settings).readSchema "Item" apart = .ok schema ∧
        schema.elementNames = ["Limit", "Id", "OwnerId", "Tags"] ∧
        schema.referenceNames = ["OwnerId"] ∧
        (∀ name ∈ schema.constantNames, name ∉ schema.designFields.map EntityField.name) ∧
        (∀ key ∈ schema.keyMember ({} : Settings).names, ∀ name ∈ schema.elementNames,
          ({} : Settings).names.publicName name ≠ key) ∧
        (∀ name ∈ schema.referenceNames,
          ({} : Settings).names.referenceName name ∉ schema.elementNames) ∧
        ((({} : Settings).compileSheet schema apart [schema]).toOption.any fun _ =>
          decide (schema.hasEntity = true)) = true :=
    exists_ok_of_decide _ (by decide +kernel)
  obtain ⟨output, houtput, hentity⟩ := exists_ok_of_decide _ hcompiles
  obtain ⟨catalog, hcatalog, -, hmembers⟩ := Settings.compileSheet_memberNames rfl
    (Settings.isRead_of_readSchema hschema) houtput
  have hsome : (CSharp.unitOf schema catalog []).entity
      = some (CSharp.entityOf schema catalog (.ofNaming catalog.naming)) := by
    rw [CSharp.unitOf, hentity]
    rfl
  have hwrites : ∀ name ∈ schema.elementNames, Casing.pascal.Writes name := by
    rw [helements]
    simp only [List.forall_mem_cons, List.not_mem_nil, false_implies, implies_true, and_true]
    exact ⟨⟨["limit"], by simp [Casing.IsWord], by decide⟩,
      ⟨["id"], by simp [Casing.IsWord], by decide⟩,
      ⟨["owner", "id"], by simp [Casing.IsWord], by decide⟩,
      ⟨["tags"], by simp [Casing.IsWord], by decide⟩⟩
  have hids : ∀ name ∈ schema.referenceNames, ({} : Settings).names.NamesReference name := by
    rw [hreferences, List.forall_mem_singleton]
    exact ⟨["owner"], by simp, by simp [Casing.IsWord], by decide⟩
  exact ⟨schema, output, catalog, _, hschema, houtput, hcatalog, hsome, hreferences,
    (((hmembers _ hsome).2.2 hwrites).2 hids).mpr ⟨hconstants, hkey, hapart⟩⟩

end Owners
end TypedSheets

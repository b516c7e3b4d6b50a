import TypedSheets.Proofs.EmittedTypes

/-!
# Members that generated code declares

The body of an entity is read for the members that it declares: each line that is no comment
and no attribute declares one, and so does each scope that is no type.  The name of a member
stands after its type.  What is read this way are the names that the data of the entity give,
one by one and in the same order.

## Main definitions

* `Text.Leads`, `Text.Starts` — how texts start.
* `CSharp.DeclaresMember`, `CSharp.Code.isMember` — the declarations of members in code.
* `CSharp.Entity.memberNames` — **the names of the members of an entity.**

## Main results

* `CSharp.ConstantMember.declaresMembers`, `CSharp.RowMember.declaresMembers` — constants and
  fields.
* `CSharp.declaresMembers_entityOf` — **the code of an entity declares its members.**
-/

namespace TypedSheets

/-! ### How texts start -/

namespace Text

/-- That a text starts with a character. -/
def Leads (c : Char) (text : String) : Prop := text.toList.head? = some c

instance (c : Char) (text : String) : Decidable (Leads c text) :=
  inferInstanceAs (Decidable (_ = _))

theorem leads {c : Char} {text : String} (h : text.toList.head? = some c) : Leads c text := h

theorem Leads.append {c : Char} {text : String} (h : Leads c text) (rest : String) :
    Leads c (text ++ rest) := by
  rw [Leads, String.toList_append, List.head?_append, h, Option.some_or]

/-- That a text starts with another one. -/
def Starts (start text : String) : Prop := start.toList <+: text.toList

theorem starts_self (text : String) : Starts text text := List.prefix_rfl

theorem Starts.append {start text : String} (h : Starts start text) (rest : String) :
    Starts start (text ++ rest) := by
  rw [Starts, String.toList_append]
  exact h.trans (List.prefix_append ..)

end Text

namespace CSharp

open Text (Leads leads starts_self)

/-! ### Members that code declares -/

/-- What follows the name of a member on the line that declares it: the accessors of a property,
the end of a field, or how a property is computed. -/
def afterName : List String :=
  [" \x7b get; set; \x7d", " \x7b get; init; \x7d", " \x7b get; init; \x7d = new();", ";", " => "]

/-- That a piece of code declares a member of a name, after its type. -/
inductive DeclaresMember (name : String) : Code → Prop
  /-- On a line, such as `private static int _limit { get; set; }`. -/
  | line {text lead after : String} (hlead : lead.toList.getLast? = some ' ')
      (hafter : after ∈ afterName) (h : Text.Starts (lead ++ name ++ after) text) :
      DeclaresMember name (.line text)
  /-- With a body, as in `public static int Limit`. -/
  | scope {lead : String} {body : List Code} (hlead : lead.toList.getLast? = some ' ') :
      DeclaresMember name (.scope (lead ++ name) body)

/-- Whether a piece of the body of an entity declares a member: a line that is no comment and no
attribute, or a scope that declares no type. -/
def Code.isMember : Code → Bool
  | line text => text.toList.head? != some '/' && text.toList.head? != some '['
  | blank => false
  | scope header _ => !declaresType header

namespace Code

variable {text : String} {code : List Code}

theorem isMember_line {c : Char} (h : Leads c text) :
    (line text).isMember = (c != '/' && c != '[') := by
  rw [isMember, h]
  rfl

/-- A line that declares something. -/
theorem filter_isMember_member (h : Leads 'p' text) :
    (line text :: code).filter isMember = line text :: code.filter isMember :=
  List.filter_cons_of_pos (by rw [isMember_line h]; decide)

theorem filter_isMember_attribute (h : Leads '[' text) :
    (line text :: code).filter isMember = code.filter isMember :=
  List.filter_cons_of_neg (by rw [isMember_line h]; decide)

theorem filter_isMember_comment (h : Leads '/' text) :
    (line text :: code).filter isMember = code.filter isMember :=
  List.filter_cons_of_neg (by rw [isMember_line h]; decide)

theorem filter_isMember_blank : (blank :: code).filter isMember = code.filter isMember :=
  List.filter_cons_of_neg (by simp [isMember])

theorem filter_isMember_remark (comment : Option String) :
    (remark comment).filter isMember = [] := by
  cases comment with
  | none => rfl
  | some text => exact filter_isMember_comment (((leads rfl).append _).append _)

theorem filter_isMember_summaryLines (summary : Option String) :
    (summaryLines summary).filter isMember = [] := by
  cases summary with
  | none => rfl
  | some text =>
    refine List.filter_eq_nil_iff.mpr fun piece hpiece => ?_
    obtain ⟨line, rfl, hleads⟩ : ∃ line, piece = Code.line line ∧ Leads '/' line := by
      rcases List.mem_append.mp hpiece with hpiece | hpiece
      · rcases List.mem_cons.mp hpiece with rfl | hpiece
        · exact ⟨_, rfl, leads rfl⟩
        · obtain ⟨line, -, rfl⟩ := List.mem_map.mp hpiece
          exact ⟨_, rfl, (leads rfl).append _⟩
      · exact ⟨_, List.mem_singleton.mp hpiece, leads rfl⟩
    rw [isMember_line hleads]
    decide

end Code

/-- The code of a type declares no member of the entity around it. -/
theorem filter_isMember_typeOf (catalog : Catalog) (entry : Block × Declaration) :
    (typeOf catalog entry).code.filter Code.isMember = [] := by
  have hscope : ∀ (header : String) (body : List Code), declaresType header = true →
      [Code.scope header body].filter Code.isMember = [] := by
    intro header body hheader
    exact List.filter_cons_of_neg (by simp [Code.isMember, hheader])
  obtain ⟨block, declaration⟩ := entry
  cases declaration with
  | «enum» decl =>
    have hattribute : Leads '[' "[JsonConverter(typeof(StringEnumConverter))]" := leads rfl
    rw [typeOf, TypeDeclaration.code, EnumType.code, List.filter_append, List.filter_append,
      Code.filter_isMember_summaryLines, Code.filter_isMember_attribute hattribute]
    exact congrArg (· ++ _) (hscope _ _ (declaresType_headerOf catalog.naming (block, .enum decl)))
  | record decl =>
    have hattribute : Leads '[' "[Serializable]" := leads rfl
    rw [typeOf, TypeDeclaration.code, RecordType.code, List.filter_append, List.filter_append,
      Code.filter_isMember_summaryLines, Code.filter_isMember_attribute hattribute]
    exact congrArg (· ++ _) (hscope _ _ (declaresType_record _))

/-! ### Names of members -/

/-- The names of the members of a constant. -/
def ConstantMember.names (constant : ConstantMember) : List String :=
  [constant.privateName, constant.publicName]

/-- The names of the members of a field: itself, and the reference that it holds. -/
def RowMember.names (member : RowMember) : List String :=
  (if member.isList then [member.privateName, member.publicName] else [member.publicName]) ++
    member.reference.elim [] fun reference => [reference.cache, reference.accessor]

/-- The names of the members of an entity, in the order of its code. -/
def Entity.memberNames (names : LoaderNames) (entity : Entity) : List String :=
  (entity.constants.getD []).flatMap ConstantMember.names ++
    entity.rows.elim [] fun rows => names.key :: rows.members.flatMap RowMember.names

theorem getLast?_append_blank {text : String} (lead : String)
    (h : text.toList.getLast? = some ' ') : (lead ++ text).toList.getLast? = some ' ' := by
  rw [String.toList_append, List.getLast?_append, h, Option.some_or]

/-- The code of a constant declares its two members. -/
theorem ConstantMember.declaresMembers (names : LoaderNames) (constant : ConstantMember) :
    List.Forall₂ DeclaresMember constant.names ((constant.code names).filter Code.isMember) := by
  have hscope : declaresType ("public static " ++ constant.type ++ " " ++ constant.publicName)
      = false := by
    rw [String.append_assoc, String.append_assoc]
    exact (declaresType_other _).2.2.1
  rw [ConstantMember.code, List.filter_append, List.filter_append, Code.filter_isMember_remark,
    Code.filter_isMember_attribute (((leads rfl).append _).append _),
    Code.filter_isMember_member (((((leads rfl).append _).append _).append _).append _),
    Code.filter_isMember_blank, Code.filter_isMember_attribute (leads rfl),
    List.filter_cons_of_pos (by rw [Code.isMember, hscope]; rfl), Code.filter_isMember_blank]
  refine .cons ?_ (.cons (.scope (getLast?_append_blank _ rfl)) .nil)
  exact .line (getLast?_append_blank _ rfl) (by decide) (starts_self _)

/-- The code of a reference declares its cache and its accessor. -/
theorem ReferenceMember.declaresMembers (names : LoaderNames) (publicName : String) (isList : Bool)
    (reference : ReferenceMember) :
    List.Forall₂ DeclaresMember [reference.cache, reference.accessor]
      ((reference.code names publicName isList).filter Code.isMember) := by
  have hignore : Leads '[' "[JsonIgnore]" := leads rfl
  have hprivate : Leads 'p' "private " := leads rfl
  have hpublic : Leads 'p' "public " := leads rfl
  rw [ReferenceMember.code, Code.filter_isMember_attribute hignore,
    Code.filter_isMember_member ((((hprivate.append _).append _).append _).append _),
    Code.filter_isMember_blank, Code.filter_isMember_attribute hignore,
    Code.filter_isMember_member ((((((((hpublic.append _).append _).append _).append _).append
      _).append _).append _).append _), Code.filter_isMember_blank]
  refine .cons ?_ (.cons ?_ .nil)
  · exact .line (getLast?_append_blank _ rfl) (by decide) (starts_self _)
  · exact .line (getLast?_append_blank _ rfl) (by decide)
      (((((starts_self _).append _).append _).append _).append _)

/-- The code of a field declares its members. -/
theorem RowMember.declaresMembers (names : LoaderNames) (member : RowMember) :
    List.Forall₂ DeclaresMember member.names ((member.code names).filter Code.isMember) := by
  have hown : List.Forall₂ DeclaresMember
      (if member.isList then [member.privateName, member.publicName] else [member.publicName])
      (member.ownCode.filter Code.isMember) := by
    have hignore : Leads '[' "[JsonIgnore]" := leads rfl
    have hproperty : Leads '[' "[JsonProperty(nameof(" := leads rfl
    have hprivate : Leads 'p' "private List<" := leads rfl
    have hpublic : Leads 'p' "public IReadOnlyList<" := leads rfl
    have hplain : Leads 'p' "public " := leads rfl
    rw [RowMember.ownCode]
    cases member.isList with
    | true =>
      rw [if_pos rfl, if_pos rfl, Code.filter_isMember_attribute ((hproperty.append _).append _),
        Code.filter_isMember_member ((((hprivate.append _).append _).append _).append _),
        Code.filter_isMember_blank, Code.filter_isMember_attribute hignore,
        Code.filter_isMember_member ((((((hpublic.append _).append _).append _).append _).append
          _).append _)]
      refine .cons ?_ (.cons ?_ .nil)
      · exact .line (getLast?_append_blank _ rfl) (by decide) (starts_self _)
      · exact .line (getLast?_append_blank _ rfl) (by decide)
          (((starts_self _).append _).append _)
    | false =>
      have hattribute : (ignoreNull member.optional).filter Code.isMember = [] := by
        cases member.optional <;> rfl
      rw [if_neg (by simp), if_neg (by simp), List.filter_append, hattribute,
        Code.filter_isMember_member ((((hplain.append _).append _).append _).append _)]
      refine .cons ?_ .nil
      exact .line (getLast?_append_blank _ rfl) (by decide) (starts_self _)
  -- remarks and blanks fall out; the reference stands after the field itself
  rw [RowMember.names, RowMember.code, List.filter_append, List.filter_append, List.filter_append,
    Code.filter_isMember_remark, Code.filter_isMember_blank, List.nil_append, List.filter_nil,
    List.append_nil]
  refine List.rel_append hown ?_
  cases member.reference with
  | none => exact .nil
  | some reference => exact reference.declaresMembers names member.publicName member.isList

/-- **The code of an entity declares its members**, one by one, and besides them only types. -/
theorem declaresMembers_entityOf (schema : Schema) (catalog : Catalog) (names : LoaderNames) :
    ∃ header body, (entityOf schema catalog names).code names
        = Code.summaryLines schema.description? ++ [Code.scope header body] ∧
      List.Forall₂ DeclaresMember ((entityOf schema catalog names).memberNames names)
        (body.filter Code.isMember) := by
  have htypes : ((entityOf schema catalog names).types.flatMap TypeDeclaration.code).filter
      Code.isMember = [] := by
    rw [entityOf, types_eq_map, List.flatMap_map, List.filter_flatMap]
    exact List.flatMap_eq_nil_iff.mpr fun entry _ => filter_isMember_typeOf catalog entry
  generalize hentity : entityOf schema catalog names = entity at htypes
  have hsummary : schema.description? = entity.summary := by rw [← hentity, entityOf]
  rw [hsummary, Entity.code]
  refine ⟨_, _, rfl, ?_⟩
  -- types first, then constants, then the key and the fields
  rw [List.filter_append, List.filter_append, htypes, List.nil_append, Entity.memberNames]
  refine List.rel_append ?_ ?_
  · cases entity.constants with
    | none => exact .nil
    | some constants =>
      rw [List.filter_append, List.filter_flatMap, Code.filter_isMember_blank, List.filter_nil,
        List.append_nil]
      exact List.rel_flatMap (R := Eq) (List.forall₂_refl constants)
        fun constant _ h => h ▸ constant.declaresMembers names
  · cases entity.rows with
    | none => exact .nil
    | some rows =>
      have hignore : Leads '[' "[JsonIgnore]" := leads rfl
      have hpublic : Leads 'p' "public " := leads rfl
      show List.Forall₂ DeclaresMember _ ((rows.code names).filter Code.isMember)
      rw [RowMembers.code, List.filter_append, List.filter_flatMap,
        Code.filter_isMember_attribute hignore,
        Code.filter_isMember_member ((((((hpublic.append _).append _).append _).append _).append
          _).append _), Code.filter_isMember_blank]
      refine .cons (.line (getLast?_append_blank _ rfl) (by decide)
        (((starts_self _).append _).append _)) ?_
      exact List.rel_flatMap (R := Eq) (List.forall₂_refl rows.members)
        fun member _ h => h ▸ member.declaresMembers names

end CSharp
end TypedSheets

import TypedSheets.Proofs.DocumentShape
import TypedSheets.Proofs.SchemaReading

/-!
# Types of a generated unit

A unit declares the types of its sheet in two places: global ones in the namespace, all others
inside the entity.  Without an entity there is no place for the others, and each of them is
warned about.

What a unit declares is read off its code: every scope whose header declares an enumeration or
a record counts, however deep it stands and whatever is around it.  So nothing else can be
declared, and nothing twice.  The bodies of records are read in the same way, one line for each
property.

## Main definitions

* `CSharp.TypeScope`, `CSharp.Code.typeScopesIn` — the types that code declares, and where.
* `CSharp.placed` — the types of a sheet, and where they belong.
* `CSharp.Declares` — that a scope declares a type of a sheet.
* `CSharp.WarnsOf` — that a warning is about a type.

## Main results

* `CSharp.Code.typeScopesIn_append`, `CSharp.Code.typeScopesIn_eq_nil` — reading code.
* `CSharp.typeScopes_types` — **the code of the types of a sheet.**
* `CSharp.typeScopes_entity` — what the entity declares.
* `CSharp.unitOf_declares_exact` — **every type is declared once, in its place.**
-/

namespace TypedSheets.CSharp

/-! ### Types that code declares -/

/-- A type that code declares, with the headers of the scopes around it, the outermost
first. -/
structure TypeScope where
  around : List String
  header : String
  body : List Code

/-- Whether a header declares an enumeration or a record.  That of an entity does not: entities
are sealed. -/
def declaresType (header : String) : Bool :=
  "public enum ".toList.isPrefixOf header.toList ||
    "public partial record ".toList.isPrefixOf header.toList

namespace Code

mutual

/-- The types that a piece of code declares, at any depth. -/
def typeScopes (around : List String) : Code → List TypeScope
  | line _ | blank => []
  | scope header body =>
    (if declaresType header then [⟨around, header, body⟩] else []) ++
      typeScopesIn (around ++ [header]) body

/-- The types that pieces of code declare. -/
def typeScopesIn (around : List String) : List Code → List TypeScope
  | [] => []
  | piece :: rest => typeScopes around piece ++ typeScopesIn around rest

end

/-- Whether a piece of code is a scope. -/
def isScope : Code → Bool
  | line _ | blank => false
  | scope _ _ => true

@[simp] theorem isScope_line (text : String) : (line text).isScope = false := rfl

@[simp] theorem isScope_blank : blank.isScope = false := rfl

variable {around : List String} {code : List Code}

@[simp] theorem typeScopesIn_append (first second : List Code) :
    typeScopesIn around (first ++ second)
      = typeScopesIn around first ++ typeScopesIn around second := by
  induction first with
  | nil => rfl
  | cons piece rest ih =>
    rw [List.cons_append, typeScopesIn, typeScopesIn, ih, List.append_assoc]

theorem typeScopesIn_line (text : String) (rest : List Code) :
    typeScopesIn around (line text :: rest) = typeScopesIn around rest := by
  rw [typeScopesIn, typeScopes, List.nil_append]

theorem typeScopesIn_blank : typeScopesIn around [blank] = [] := by
  rw [typeScopesIn, typeScopes, typeScopesIn, List.nil_append]

theorem typeScopesIn_flatMap {α : Type} (xs : List α) (f : α → List Code) :
    typeScopesIn around (xs.flatMap f) = xs.flatMap fun x => typeScopesIn around (f x) := by
  induction xs with
  | nil => rfl
  | cons x xs ih => rw [List.flatMap_cons, List.flatMap_cons, typeScopesIn_append, ih]

/-- Lines declare no types. -/
theorem typeScopesIn_eq_nil (h : ∀ piece ∈ code, piece.isScope = false) :
    typeScopesIn around code = [] := by
  induction code with
  | nil => rfl
  | cons piece rest ih =>
    rw [List.forall_mem_cons] at h
    cases piece with
    | scope _ _ => cases h.1
    | line _ => exact ih h.2
    | blank => exact ih h.2

/-- A scope of lines whose header declares a type. -/
theorem typeScopesIn_declaring {header : String} (hheader : declaresType header = true)
    (hbody : ∀ piece ∈ code, piece.isScope = false) :
    typeScopesIn around [scope header code] = [⟨around, header, code⟩] := by
  rw [typeScopesIn, typeScopesIn, typeScopes, if_pos hheader, typeScopesIn_eq_nil hbody]
  rfl

/-- A scope whose header declares none: what counts is what is in it. -/
theorem typeScopesIn_other {header : String} (hheader : declaresType header = false) :
    typeScopesIn around [scope header code] = typeScopesIn (around ++ [header]) code := by
  rw [typeScopesIn, typeScopesIn, typeScopes, if_neg (by simp [hheader]), List.append_nil]
  rfl

theorem isScope_summaryLines (summary : Option String) :
    ∀ piece ∈ summaryLines summary, piece.isScope = false := by
  cases summary with
  | none => simp [summaryLines]
  | some text => simp [summaryLines, or_imp, forall_and]

theorem isScope_remark (comment : Option String) :
    ∀ piece ∈ remark comment, piece.isScope = false := by
  cases comment with
  | none => simp [remark]
  | some text => simp [remark]

end Code

/-! ### Headers -/

theorem declaresType_enum (rest : String) : declaresType ("public enum " ++ rest) = true := by
  rw [declaresType, String.toList_append]
  rfl

theorem declaresType_record (rest : String) :
    declaresType ("public partial record " ++ rest) = true := by
  rw [declaresType, String.toList_append]
  rfl

/-- The headers of other scopes. -/
theorem declaresType_other (rest : String) :
    declaresType ("public partial interface " ++ rest) = false ∧
      declaresType ("public sealed partial record " ++ rest) = false ∧
      declaresType ("public static " ++ rest) = false ∧
      declaresType ("namespace " ++ rest) = false := by
  simp only [declaresType, String.toList_append]
  exact ⟨rfl, rfl, rfl, rfl⟩

/-! ### Properties of records -/

/-- A line of code that declares something public. -/
def Code.publicLine? : Code → Option String
  | line text => if "public ".toList.isPrefixOf text.toList then some text else none
  | blank | scope _ _ => none

/-- The line of a property. -/
def propertyLine (naming : NameStyle) (field : Field) : String :=
  "public " ++ typeText naming field.type ++ " " ++ field.emitted ++ " \x7b get; init; \x7d" ++
    if field.type.isList then " = new();" else ""

theorem publicLines_remark (comment : Option String) :
    (Code.remark comment).filterMap Code.publicLine? = [] := by
  cases comment with
  | none => rfl
  | some text =>
    have hline : ∀ rest : String,
        (Code.line ("/// <summary> " ++ rest ++ " </summary>")).publicLine? = none := by
      intro rest
      rw [Code.publicLine?, String.toList_append, String.toList_append]
      rfl
    simp [Code.remark, hline]

theorem publicLine?_propertyLine (naming : NameStyle) (field : Field) :
    (Code.line (propertyLine naming field)).publicLine? = some (propertyLine naming field) := by
  have hpublic : "public ".toList.isPrefixOf (propertyLine naming field).toList = true := by
    rw [propertyLine, String.append_assoc, String.append_assoc, String.append_assoc,
      String.append_assoc, String.toList_append]
    exact List.isPrefixOf_iff_prefix.mpr (List.prefix_append ..)
  rw [Code.publicLine?, if_pos hpublic]

/-- **A property is declared on one line.** -/
theorem publicLines_property (naming : NameStyle) (declared : FieldDecl) (field : Field) :
    (propertyOf naming declared field).code.filterMap Code.publicLine?
      = [propertyLine naming field] := by
  have hattribute : (ignoreNull field.optional).filterMap Code.publicLine? = [] := by
    cases field.optional <;> rfl
  rw [Property.code, List.filterMap_append, List.filterMap_append, propertyOf, publicLines_remark,
    hattribute]
  exact List.filterMap_cons_some (f := Code.publicLine?) (publicLine?_propertyLine naming field)

/-- The properties of a record: one for each pair of a declared and a resolved field. -/
theorem publicLines_properties (naming : NameStyle) : ∀ {fields : List FieldDecl}
    {resolved : List Field}, fields.length = resolved.length →
      ((List.zipWith (propertyOf naming) fields resolved).flatMap Property.code).filterMap
        Code.publicLine? = resolved.map (propertyLine naming)
  | [], [], _ => rfl
  | declared :: fields, field :: resolved, h => by
    rw [List.zipWith_cons_cons, List.flatMap_cons, List.filterMap_append, publicLines_property,
      publicLines_properties naming (Nat.succ.inj h), List.map_cons, List.singleton_append]

/-! ### Types of a sheet -/

/-- The header that a type of a sheet is declared under. -/
def headerOf (naming : NameStyle) : Block × Declaration → String
  | (block, .enum decl) =>
    "public enum " ++ naming.enumName block.label ++ " : " ++ decl.backing.keyword
  | (block, .record _) => "public partial record " ++ naming.recordName block.label

theorem declaresType_headerOf (naming : NameStyle) (entry : Block × Declaration) :
    declaresType (headerOf naming entry) = true := by
  obtain ⟨block, declaration⟩ := entry
  cases declaration with
  | «enum» decl =>
    have hheader : headerOf naming (block, .enum decl) = "public enum " ++
        (naming.enumName block.label ++ (" : " ++ decl.backing.keyword)) := by
      rw [← String.append_assoc, ← String.append_assoc]
      rfl
    rw [hheader]
    exact declaresType_enum _
  | record _ => exact declaresType_record _

/-- That the body of a record declares the fields of its declaration: a shape has them under
their generated names, each has one line, in order, and objects of the record have them under
the same names. -/
def DeclaresFields (catalog : Catalog) (name : String) (record : RecordDecl) (body : List Code) :
    Prop :=
  ∃ shape, catalog.record? name = some shape ∧
    (shape.fields.map fun field => (field.name, field.emitted))
      = (record.fields.map fun field => (field.name, catalog.naming.recordField field.name)) ∧
    body.filterMap Code.publicLine? = shape.fields.map (propertyLine catalog.naming) ∧
    ∀ type fields, type.bare = .record name → ∃ members,
      (Value.record fields).typed catalog type = .obj members ∧
        members.map Prod.fst = (shape.writtenFields (.record fields)).map Field.emitted

/-- That a scope declares a type of a sheet at a place.  What is said of records is said for the
catalog of the sheet. -/
structure Declares (schema : Schema) (catalog : Catalog) (around : List String)
    (entry : Block × Declaration) (found : TypeScope) : Prop where
  around : found.around = around
  header : found.header = headerOf catalog.naming entry
  fields : ∀ record, entry.2 = .record record → ∀ others naming,
    Catalog.ofSchemas schema others naming = .ok catalog →
      DeclaresFields catalog entry.1.label record found.body

/-- The generated type of a declaration. -/
def typeOf (catalog : Catalog) : Block × Declaration → TypeDeclaration
  | (block, .enum decl) => .enum (enumOf catalog.naming block decl)
  | (block, .record decl) => .record (recordOf catalog block decl)

section Types

variable {schema : Schema} {catalog : Catalog} {around : List String}

/-- The types of a sheet that are global, or those that are not, in the order of
declarations. -/
theorem types_eq_map (schema : Schema) (catalog : Catalog) (isGlobal : Bool) :
    enumTypes schema catalog.naming isGlobal ++ recordTypes schema catalog isGlobal
      = (schema.declarations.filter fun entry => entry.2.isGlobal == isGlobal).map
          (typeOf catalog) := by
  rw [Schema.declarations, List.filter_append, List.map_append, List.filter_map, List.filter_map,
    List.map_map, List.map_map]
  rfl

/-- The record of the sheet's own declaration declares its fields. -/
theorem declaresFields_recordOf {block : Block} {record : RecordDecl}
    (hrecord : (block, record) ∈ schema.records) {others : List Schema} {naming : NameStyle}
    (hcatalog : Catalog.ofSchemas schema others naming = .ok catalog) :
    DeclaresFields catalog block.label record
      ((recordOf catalog block record).properties.flatMap Property.code) := by
  obtain ⟨-, scope, hmade⟩ := Catalog.madeIn_of_ofSchemas hcatalog
  obtain ⟨shape, hshape, hfields⟩ := hmade.closed.own _ hrecord
  refine ⟨shape, hshape, ?_, ?_, ?_⟩
  · exact (map_eq_of_forall₂ hfields fun decl field hfield =>
      Prod.ext hfield.name.symm hfield.emitted.symm).symm
  · simp only [recordOf, hshape]
    exact publicLines_properties catalog.naming hfields.length_eq
  · intro type fields htype
    exact ⟨_, Value.typed_record htype hshape fields, Catalog.keys_members catalog shape fields⟩

theorem typeScopesIn_enum (around : List String) (type : EnumType) :
    Code.typeScopesIn around (TypeDeclaration.enum type).code
      = [⟨around, "public enum " ++ type.name ++ " : " ++ type.backing.keyword,
          type.items.flatMap EnumItem.code⟩] := by
  have hheader : declaresType ("public enum " ++ type.name ++ " : " ++ type.backing.keyword)
      = true := by
    rw [String.append_assoc, String.append_assoc]
    exact declaresType_enum _
  -- the members of an enumeration are lines, which declare nothing
  have hbody : ∀ piece ∈ type.items.flatMap EnumItem.code, piece.isScope = false := by
    refine List.forall_mem_flatMap.mpr fun item _ => ?_
    rw [EnumItem.code]
    exact List.forall_mem_append.mpr ⟨Code.isScope_remark _, by simp⟩
  rw [TypeDeclaration.code, EnumType.code, Code.typeScopesIn_append, Code.typeScopesIn_append,
    Code.typeScopesIn_eq_nil (Code.isScope_summaryLines _), Code.typeScopesIn_line,
    Code.typeScopesIn_blank, Code.typeScopesIn_declaring hheader hbody]
  rfl

theorem typeScopesIn_record (around : List String) (type : RecordType) :
    Code.typeScopesIn around (TypeDeclaration.record type).code
      = [⟨around, "public partial record " ++ type.name,
          type.properties.flatMap Property.code⟩] := by
  have hbody : ∀ piece ∈ type.properties.flatMap Property.code, piece.isScope = false := by
    refine List.forall_mem_flatMap.mpr fun property _ => ?_
    rw [Property.code]
    refine List.forall_mem_append.mpr ⟨List.forall_mem_append.mpr ⟨Code.isScope_remark _, ?_⟩,
      by simp⟩
    cases property.optional <;> simp [ignoreNull]
  rw [TypeDeclaration.code, RecordType.code, Code.typeScopesIn_append, Code.typeScopesIn_append,
    Code.typeScopesIn_eq_nil (Code.isScope_summaryLines _), Code.typeScopesIn_line,
    Code.typeScopesIn_blank, Code.typeScopesIn_declaring (declaresType_record _) hbody]
  rfl

theorem typeScopesIn_interface (around : List String) (type : InterfaceType) :
    Code.typeScopesIn around (TypeDeclaration.interface type).code = [] := by
  rw [TypeDeclaration.code, InterfaceType.code, Code.typeScopesIn_append, Code.typeScopesIn_append,
    Code.typeScopesIn_eq_nil (Code.isScope_summaryLines _),
    Code.typeScopesIn_other (declaresType_other _).1]
  rfl

/-- **The code of a type declares that type**, and no other. -/
theorem exists_declares (around : List String) {entry : Block × Declaration}
    (hentry : entry ∈ schema.declarations) :
    ∃ found, Code.typeScopesIn around (typeOf catalog entry).code = [found] ∧
      Declares schema catalog around entry found := by
  obtain ⟨block, declaration⟩ := entry
  cases declaration with
  | «enum» decl => exact ⟨_, typeScopesIn_enum around _, rfl, rfl, by simp⟩
  | record decl =>
    refine ⟨_, typeScopesIn_record around _, rfl, rfl, ?_⟩
    rintro record ⟨⟩ others naming hcatalog
    have hrecord : (block, decl) ∈ schema.records := by
      simpa [Schema.declarations] using hentry
    exact declaresFields_recordOf hrecord hcatalog

/-- **The code of the types of a sheet** declares each of them once, in order. -/
theorem typeScopes_types (schema : Schema) (catalog : Catalog) (around : List String)
    (isGlobal : Bool) :
    List.Forall₂ (Declares schema catalog around)
      (schema.declarations.filter fun entry => entry.2.isGlobal == isGlobal)
      (Code.typeScopesIn around ((enumTypes schema catalog.naming isGlobal ++
        recordTypes schema catalog isGlobal).flatMap TypeDeclaration.code)) := by
  rw [types_eq_map, List.flatMap_map, Code.typeScopesIn_flatMap]
  exact forall₂_flatMap fun entry hentry => exists_declares around (List.mem_filter.mp hentry).1

end Types

/-! ### Entities -/

theorem typeScopesIn_constant (around : List String) (names : LoaderNames)
    (constant : ConstantMember) : Code.typeScopesIn around (constant.code names) = [] := by
  have hheader : declaresType ("public static " ++ constant.type ++ " " ++ constant.publicName)
      = false := by
    rw [String.append_assoc, String.append_assoc]
    exact (declaresType_other _).2.2.1
  rw [ConstantMember.code, Code.typeScopesIn_append, Code.typeScopesIn_append,
    Code.typeScopesIn_eq_nil (Code.isScope_remark _)]
  -- the body of the property is a scope as well, but of lines only
  have hscope : ∀ lines : List Code, (∀ piece ∈ lines, piece.isScope = false) →
      Code.typeScopesIn around [Code.scope ("public static " ++ constant.type ++ " " ++
        constant.publicName) [Code.scope "get" lines]] = [] := by
    intro lines hlines
    rw [Code.typeScopesIn_other hheader, Code.typeScopesIn_other (by decide),
      Code.typeScopesIn_eq_nil hlines]
  rw [Code.typeScopesIn_eq_nil (by simp), Code.typeScopesIn_line, List.nil_append, List.nil_append]
  refine (Code.typeScopesIn_append [_] [Code.blank]).trans ?_
  rw [hscope _ (by simp), Code.typeScopesIn_blank, List.nil_append]

theorem isScope_rows (names : LoaderNames) (rows : RowMembers) :
    ∀ piece ∈ rows.code names, piece.isScope = false := by
  -- a reference adds lines, and so does the field itself
  have hreference : ∀ (member : RowMember) (reference : ReferenceMember),
      ∀ piece ∈ reference.code names member.publicName member.isList, piece.isScope = false := by
    intro member reference
    simp [ReferenceMember.code]
  have hown : ∀ member : RowMember, ∀ piece ∈ member.ownCode, piece.isScope = false := by
    intro member
    rw [RowMember.ownCode]
    cases member.isList <;> cases member.optional <;> simp [ignoreNull]
  rw [RowMembers.code]
  refine List.forall_mem_append.mpr ⟨by simp, List.forall_mem_flatMap.mpr fun member _ => ?_⟩
  rw [RowMember.code]
  simp only [List.forall_mem_append]
  refine ⟨⟨⟨Code.isScope_remark _, hown member⟩, by simp⟩, ?_⟩
  cases member.reference with
  | none => simp
  | some reference => exact hreference member reference

/-- What the code of an entity declares is what the code of its types does, inside it. -/
theorem typeScopes_entity (around : List String) (names : LoaderNames) (entity : Entity) :
    Code.typeScopesIn around (entity.code names)
      = Code.typeScopesIn (around ++ ["public sealed partial record " ++ entity.name ++ " : " ++
          ", ".intercalate entity.bases]) (entity.types.flatMap TypeDeclaration.code) := by
  have hheader : declaresType ("public sealed partial record " ++ entity.name ++ " : " ++
      ", ".intercalate entity.bases) = false := by
    rw [String.append_assoc, String.append_assoc]
    exact (declaresType_other _).2.1
  rw [Entity.code, Code.typeScopesIn_append,
    Code.typeScopesIn_eq_nil (Code.isScope_summaryLines _), List.nil_append,
    Code.typeScopesIn_other hheader, Code.typeScopesIn_append, Code.typeScopesIn_append]
  -- constants and rows declare no types
  have hconstants : ∀ constants : List ConstantMember, ∀ around,
      Code.typeScopesIn around (constants.flatMap (ConstantMember.code names) ++ [Code.blank])
        = [] := by
    intro constants around
    rw [Code.typeScopesIn_append, Code.typeScopesIn_flatMap, Code.typeScopesIn_eq_nil (by simp),
      List.append_nil]
    exact List.flatMap_eq_nil_iff.mpr fun constant _ => typeScopesIn_constant around names constant
  cases entity.constants <;> cases entity.rows <;>
    simp [hconstants, Code.typeScopesIn, Code.typeScopesIn_eq_nil (isScope_rows names _)]

/-! ### Units -/

/-- The types of a sheet, each with the headers that it belongs under: global ones in the
namespace, the others in the entity. -/
def placed (schema : Schema) (naming : NameStyle) (entity : String) :
    List (List String × Block × Declaration) :=
  let outside := (naming.settings.namespace?.map namespaceLine).toList
  ((schema.declarations.filter fun entry => entry.2.isGlobal).map fun entry => (outside, entry)) ++
    if schema.hasEntity then
      (schema.declarations.filter fun entry => !entry.2.isGlobal).map fun entry =>
        (outside ++ [entity], entry)
    else []

/-- That a diagnostic warns of a type of a sheet at its header cell. -/
structure WarnsOf (entry : Block × Declaration) (diagnostic : Diagnostic) : Prop where
  severity : diagnostic.severity = .warning
  message : diagnostic.message
    = "`" ++ entry.1.label ++ "` is scoped to the sheet entity but the sheet has none; not emitted"
  marks : (diagnostic.labels.map fun label => (label.cell, label.isPrimary))
    = [(entry.1.origin, true)]

theorem typeScopesIn_usings (around : List String) (platforms : List Platform) :
    Code.typeScopesIn around (Code.usings sheetNamespaces ++ platformUsings platforms ++
      [Code.blank]) = [] := by
  have husings : ∀ names : List String, ∀ piece ∈ Code.usings names, piece.isScope = false := by
    simp [Code.usings]
  refine Code.typeScopesIn_eq_nil ?_
  simp only [List.forall_mem_append]
  refine ⟨⟨husings _, List.forall_mem_flatMap.mpr fun platform _ => ?_⟩, by simp⟩
  exact List.forall_mem_cons.mpr ⟨rfl, List.forall_mem_append.mpr ⟨husings _, by simp⟩⟩

theorem typeScopesIn_inScope? (name : Option String) (code : List Code) :
    Code.typeScopesIn [] (Code.inScope? (name.map namespaceLine) code)
      = Code.typeScopesIn (name.map namespaceLine).toList code := by
  cases name with
  | none => rfl
  | some name => exact Code.typeScopesIn_other (declaresType_other name).2.2.2

/-- What a unit declares: the types beside the entity, then those inside it. -/
theorem typeScopes_unit (names : LoaderNames) (unit : SheetUnit) :
    Code.typeScopesIn [] (unit.code names)
      = Code.typeScopesIn (unit.namespaceName.map namespaceLine).toList
          (unit.types.flatMap TypeDeclaration.code) ++
        unit.entity.toList.flatMap fun entity =>
          Code.typeScopesIn (unit.namespaceName.map namespaceLine).toList (entity.code names) := by
  rw [SheetUnit.code, Code.typeScopesIn_append, typeScopesIn_usings, List.nil_append,
    typeScopesIn_inScope?, Code.typeScopesIn_append]
  cases unit.entity with
  | none => rfl
  | some entity => rw [Option.toList_some, List.flatMap_singleton]

/-- The types beside the entity: global ones, for interfaces are no data types. -/
theorem typeScopes_beside (schema : Schema) (catalog : Catalog) (platforms : List Platform)
    (around : List String) :
    List.Forall₂ (Declares schema catalog around)
      (schema.declarations.filter fun entry => entry.2.isGlobal)
      (Code.typeScopesIn around
        ((unitOf schema catalog platforms).types.flatMap TypeDeclaration.code)) := by
  have hinterfaces : Code.typeScopesIn around
      ((interfaceTypes schema catalog.naming).flatMap TypeDeclaration.code) = [] := by
    rw [interfaceTypes, List.flatMap_map, Code.typeScopesIn_flatMap]
    exact List.flatMap_eq_nil_iff.mpr fun block _ => typeScopesIn_interface around _
  rw [unitOf, List.flatMap_append, Code.typeScopesIn_append, hinterfaces, List.append_nil]
  have htypes := typeScopes_types schema catalog around true
  simp only [beq_true] at htypes
  exact htypes

/-- Without an entity, the types that are left out are those that are not global. -/
theorem leftOut_eq_map {schema : Schema} (h : schema.hasEntity = false) :
    leftOut schema
      = (schema.declarations.filter fun entry => !entry.2.isGlobal).map Prod.fst := by
  have hblocks : ∀ {α : Type} (isGlobal : α → Bool) (entries : List (Block × α)),
      (entries.filterMap fun entry => if isGlobal entry.2 then none else some entry.1)
        = (entries.filter fun entry => !isGlobal entry.2).map Prod.fst := by
    intro α isGlobal entries
    rw [← List.filterMap_eq_map, List.filterMap_filter]
    refine List.filterMap_congr fun entry _ => ?_
    cases isGlobal entry.2 <;> rfl
  rw [leftOut, h, Schema.declarations, List.filter_append, List.map_append, List.filter_map,
    List.filter_map, List.map_map, List.map_map]
  exact congrArg₂ (· ++ ·) (hblocks EnumDecl.isGlobal _) (hblocks RecordDecl.isGlobal _)

/-- The warnings are about the types that are left out, one for each. -/
theorem warnsOf_warnings (schema : Schema) :
    List.Forall₂ WarnsOf (if schema.hasEntity then []
      else schema.declarations.filter fun entry => !entry.2.isGlobal) (warnings schema) := by
  rw [warnings]
  cases h : schema.hasEntity with
  | true =>
    rw [leftOut, h]
    exact .nil
  | false =>
    rw [leftOut_eq_map h, List.map_map, List.forall₂_map_right_iff]
    exact List.forall₂_same.mpr fun entry _ => ⟨rfl, rfl, rfl⟩

/-- The cell of a block that was read is its header. -/
theorem header_of_read {dialect : Dialect} {sheet : String} {view : View} {schema : Schema}
    (h : Schema.read dialect sheet view = .ok schema) {block : Block}
    (hblock : block ∈ schema.blocks) :
    ∃ row, block.origin = view.place row 0 ∧
      dialect.tag? (view.text? row 0) = some block.kind.tag := by
  obtain ⟨-, hfound, -⟩ := Schema.foundAt_of_read h
  obtain ⟨extent, -, hat⟩ := exists_left_of_forall₂ hfound hblock
  exact ⟨extent.1, hat.origin, hat.tag⟩

/-- **Every type of a sheet is declared once, in its place.**  The unit of a sheet declares the
global types of the sheet in its namespace and the others inside its entity, if it has one,
each of them once and nothing else.  A record of the sheet has a line for each of its fields,
under the name that objects have.  Each type that has no place for want of an entity is warned
about, at its header cell, and nothing else is. -/
theorem unitOf_declares_exact (schema : Schema) (catalog : Catalog) (platforms : List Platform) :
    (∃ bases, List.Forall₂ (fun place found => Declares schema catalog place.1 place.2 found)
      (placed schema catalog.naming ("public sealed partial record " ++
        catalog.naming.recordName schema.sheet ++ " : " ++ bases))
      (Code.typeScopesIn [] ((unitOf schema catalog platforms).code
        (.ofNaming catalog.naming)))) ∧
    List.Forall₂ WarnsOf (if schema.hasEntity then []
      else schema.declarations.filter fun entry => !entry.2.isGlobal) (warnings schema) ∧
    ∀ dialect sheet view, Schema.read dialect sheet view = .ok schema →
      ∀ entry ∈ schema.declarations, ∃ row, entry.1.origin = view.place row 0 ∧
        dialect.tag? (view.text? row 0) = some entry.1.kind.tag := by
  refine ⟨?_, warnsOf_warnings schema, fun dialect sheet view h entry hentry =>
    header_of_read h (Schema.mem_of_declarations hentry).1⟩
  refine ⟨", ".intercalate (entityOf schema catalog (.ofNaming catalog.naming)).bases, ?_⟩
  rw [typeScopes_unit, placed]
  -- the types beside the entity come first, then those inside it
  refine List.rel_append ?_ ?_
  · rw [List.forall₂_map_left_iff]
    exact typeScopes_beside schema catalog platforms _
  · cases h : schema.hasEntity with
    | false =>
      rw [unitOf, h]
      exact .nil
    | true =>
      have hinside : Option.toList (unitOf schema catalog platforms).entity
          = [entityOf schema catalog (.ofNaming catalog.naming)] := by
        rw [unitOf, h]
        rfl
      rw [hinside, List.flatMap_singleton, typeScopes_entity, if_pos rfl,
        List.forall₂_map_left_iff]
      have htypes := fun around => typeScopes_types schema catalog around false
      simp only [beq_false] at htypes
      exact htypes _

/-! ### A sheet with types in both places -/

namespace Dock

/-- A sheet with an entity, and with types of each kind that are global and that are not. -/
def grid : Grid := ⟨#[
  #[some "[Enum:Global]", some "Kind"], #[some "Name"], #[some "Pier"],
  #[some "[Enum]", some "Side"], #[some "Name"], #[some "Left"],
  #[some "[Record:Global]", some "Depth"], #[some "Name", some "Type"], #[some "Low", some "int"],
  #[some "[Record]", some "Berth"], #[some "Name", some "Type"],
  #[some "Depths", some "List<Depth>"], #[some "Side", some "Side?"],
  #[some "[Design]"], #[some "Name", some "Type", some "IsPrimaryKey"],
  #[some "Id", some "int", some "true"], #[some "Berth", some "Berth"],
  #[some "[Name]"], #[some "Id", some "Berth.Side"], #[some "[Data]"], #[some "1", some "Left"]]⟩

/-- Two of its types are declared in the namespace, the other two in the entity. -/
theorem declares_dock : ∃ schema catalog,
    ({} : Settings).readSchema "Dock" grid = .ok schema ∧
    Catalog.ofSchemas schema [schema] ({} : Settings).names = .ok catalog ∧
    schema.hasEntity = true ∧
    (schema.declarations.map fun entry => (entry.2.isGlobal, headerOf catalog.naming entry))
      = [(true, "public enum Kind : int"), (false, "public enum Side : int"),
        (true, "public partial record Depth"), (false, "public partial record Berth")] ∧
    ∃ bases, List.Forall₂ (fun place found => Declares schema catalog place.1 place.2 found)
      (placed schema catalog.naming ("public sealed partial record " ++
        catalog.naming.recordName schema.sheet ++ " : " ++ bases))
      (Code.typeScopesIn [] ((unitOf schema catalog []).code (.ofNaming catalog.naming))) := by
  obtain ⟨schema, hschema, hentity, hcatalog⟩ : ∃ schema,
      ({} : Settings).readSchema "Dock" grid = .ok schema ∧ schema.hasEntity = true ∧
        ((Catalog.ofSchemas schema [schema] ({} : Settings).names).toOption.any fun catalog =>
          decide ((schema.declarations.map fun entry =>
              (entry.2.isGlobal, headerOf catalog.naming entry))
            = [(true, "public enum Kind : int"), (false, "public enum Side : int"),
              (true, "public partial record Depth"), (false, "public partial record Berth")]))
          = true :=
    exists_ok_of_decide _ (by decide +kernel)
  obtain ⟨catalog, hmade, hheaders⟩ := exists_ok_of_decide _ hcatalog
  exact ⟨schema, catalog, hschema, hmade, hentity, hheaders,
    (unitOf_declares_exact schema catalog []).1⟩

end Dock

end TypedSheets.CSharp

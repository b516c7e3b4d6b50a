import TypedSheets.Catalog.Basic
import TypedSheets.CSharp.Declaration

/-!
# Generated units of sheets

The unit of a sheet declares its global types beside its entity and all other types
inside the entity. Without a design and constants there is no entity, and the types
that would stand inside it are left out, each with a warning.

## Main definitions

* `typeText` — a resolved type in generated code.
* `enumOf`, `recordOf`, `interfaceOf` — the types of a sheet.
* `entityOf`, `unitOf` — the entity and the unit of a sheet.
* `leftOut`, `warnings` — the types that are left out.
* `sheetFile` — the file of a sheet.
-/

namespace TypedSheets.CSharp

/-- A resolved type in generated code. -/
def typeText (naming : NameStyle) : ResolvedType → String
  | .scalar s => s.keyword
  | .enum name => naming.enumName name
  | .record name => naming.recordName name
  | .list element => "List<" ++ typeText naming element ++ ">"
  | .nullable inner => typeText naming inner ++ "?"
  | .reference key _ => typeText naming key

/-! ### Types -/

/-- The enumeration of a block. -/
def enumOf (naming : NameStyle) (block : Block) (body : EnumDecl) : EnumType where
  name := naming.enumName block.label
  summary := block.summary
  backing := body.backing
  items := body.members.map fun member =>
    ⟨naming.enumMember member.name, member.explicit, member.comment⟩

/-- The property of a field of a record. -/
def propertyOf (naming : NameStyle) (declared : FieldDecl) (field : Field) : Property :=
  ⟨field.emitted, typeText naming field.type, field.type.isList, field.optional, declared.comment⟩

/-- The record of a block. -/
def recordOf (catalog : Catalog) (block : Block) (body : RecordDecl) : RecordType where
  name := catalog.naming.recordName block.label
  summary := block.summary
  properties := match catalog.record? block.label with
    | some shape => List.zipWith (propertyOf catalog.naming) body.fields shape.fields
    | none => []

/-- The interface of a block. -/
def interfaceOf (naming : NameStyle) (block : Block) : InterfaceType :=
  ⟨naming.interfaceName block.label, block.summary⟩

/-- The enumerations of a sheet that are global, or those that are not. -/
def enumTypes (schema : Schema) (naming : NameStyle) (isGlobal : Bool) : List TypeDeclaration :=
  (schema.enums.filter fun (_, body) => body.isGlobal == isGlobal).map fun (block, body) =>
    .enum (enumOf naming block body)

/-- The records of a sheet that are global, or those that are not. -/
def recordTypes (schema : Schema) (catalog : Catalog) (isGlobal : Bool) : List TypeDeclaration :=
  (schema.records.filter fun (_, body) => body.isGlobal == isGlobal).map fun (block, body) =>
    .record (recordOf catalog block body)

/-- The interfaces of a sheet. -/
def interfaceTypes (schema : Schema) (naming : NameStyle) : List TypeDeclaration :=
  schema.interfaces.map fun block => .interface (interfaceOf naming block)

/-! ### Entities -/

/-- One part as it is, several as a tuple. -/
def tuple : List String → String
  | [part] => part
  | parts => "(" ++ ", ".intercalate parts ++ ")"

/-- The type of the key of a row. -/
def keyText (catalog : Catalog) (design : DesignDecl) : String :=
  let fields := (catalog.entity.getD default).fields
  tuple (design.keys.filterMap fun key =>
    (fields.find? fun field => field.name = key.name).map fun field =>
      typeText catalog.naming field.type)

/-- The member of a constant. -/
def memberOfConstant (naming : NameStyle) (declared : ConstantDecl) (field : Field) :
    ConstantMember :=
  ⟨field.emitted, naming.privateName field.name, typeText naming field.type, declared.comment⟩

/-- How a row member refers to the rows of a sheet. -/
def referenceMember (naming : NameStyle) (publicName privateName target : String) :
    ReferenceMember :=
  ⟨naming.accessor publicName, naming.accessor privateName, naming.recordName target⟩

/-- The member of a field of the data rows. -/
def rowMember (naming : NameStyle) (declared : EntityField) (field : Field) : RowMember :=
  let privateName := naming.privateName field.name
  { publicName := field.emitted
    privateName
    type := typeText naming (field.type.element?.getD field.type)
    isList := field.type.isList
    optional := field.optional
    comment := declared.comment
    reference := declared.reference.map (referenceMember naming field.emitted privateName) }

/-- The members of the data rows of a sheet. -/
def rowMembers (catalog : Catalog) (design : DesignDecl) : RowMembers where
  keyType := keyText catalog design
  keyValue := tuple (design.keys.map fun field => catalog.naming.publicName field.name)
  members := List.zipWith (rowMember catalog.naming) design.fields
    (catalog.entity.getD default).fields

/-- What the entity of a sheet derives from: a loader, and with data rows the interface
of rows and those that the design names. -/
def entityBases (schema : Schema) (catalog : Catalog) (names : LoaderNames) (name : String) :
    List String :=
  match schema.design? with
  | some (_, design) =>
    let key := keyText catalog design
    let loader := if schema.constants?.isSome then names.full else names.design
    (loader ++ "<" ++ key ++ ", " ++ name ++ ">") ::
      (names.designInterface ++ "<" ++ key ++ ">") ::
      design.interfaces.map catalog.naming.interfaceName
  | none => [names.constant ++ "<" ++ name ++ ">"]

/-- The name of the entity of a sheet. -/
def className (naming : NameStyle) (sheet : String) : String := naming.recordName sheet

/-- The entity of a sheet. -/
def entityOf (schema : Schema) (catalog : Catalog) (names : LoaderNames) : Entity :=
  let name := className catalog.naming schema.sheet
  { name
    summary := schema.description?
    bases := entityBases schema catalog names name
    types := enumTypes schema catalog.naming false ++ recordTypes schema catalog false
    constants := schema.constants?.map fun fields =>
      List.zipWith (memberOfConstant catalog.naming) fields catalog.constants.fields
    rows := schema.design?.map fun (_, design) => rowMembers catalog design }

/-! ### Units -/

/-- The unit of a sheet. -/
def unitOf (schema : Schema) (catalog : Catalog) (platforms : List Platform) : SheetUnit where
  platforms := platforms
  namespaceName := catalog.naming.settings.namespace?
  types := enumTypes schema catalog.naming true ++ recordTypes schema catalog true ++
    interfaceTypes schema catalog.naming
  entity :=
    if schema.hasEntity then some (entityOf schema catalog (.ofNaming catalog.naming)) else none

/-- The types of a sheet that are left out for want of an entity. -/
def leftOut (schema : Schema) : List Block :=
  if schema.hasEntity then []
  else
    (schema.enums.filterMap fun (block, body) => if body.isGlobal then none else some block) ++
      schema.records.filterMap fun (block, body) => if body.isGlobal then none else some block

/-- The warning about a type that is left out. -/
def leftOutWarning (block : Block) : Diagnostic where
  severity := .warning
  code := none
  message := s!"`{block.label}` is scoped to the sheet entity but the sheet has none; not emitted"
  labels := [.primary block.origin "scoped declaration"]
  help := some "add the `Global` option or a `[Design]` block"

/-- The warnings about the types of a sheet that are left out. -/
def warnings (schema : Schema) : List Diagnostic := (leftOut schema).map leftOutWarning

/-- The file of a sheet. -/
def sheetFile (schema : Schema) (catalog : Catalog) (platforms : List Platform) : CodeFile :=
  .ofType (className catalog.naming schema.sheet)
    ((unitOf schema catalog platforms).code (.ofNaming catalog.naming))

end TypedSheets.CSharp

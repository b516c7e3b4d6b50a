import TypedSheets.Catalog.Scope

/-!
# Catalogs

The resolved types of one sheet: the shape of its data rows, of its constants and of
every record that these reach, and the enumerations in scope. Records are resolved
as they are met, the one met last first, until none is left; each is resolved once,
so the number of records in scope bounds the rounds.

## Main definitions

* `Field`, `Shape` — resolved fields, and how they are found by name.
* `Catalog`, `Catalog.ofSchemas` — the resolved types of a sheet.
* `Catalog.ofEnumText?` — the value of a text of an enumeration.
* `Catalog.zero`, `Catalog.newRow`, `Catalog.filler` — values nothing was written to.
-/

namespace TypedSheets

/-! ### Shapes -/

/-- A field with its type resolved. -/
structure Field where
  /-- Its declared name. -/
  name : String
  /-- Its name in generated code and data. -/
  emitted : String
  type : ResolvedType
  /-- Whether data leaves it out when it has no value. -/
  optional : Bool
  deriving DecidableEq, Repr

/-- The fields of a record or of a data row, in the order of the sheet. -/
structure Shape where
  fields : List Field
  deriving DecidableEq, Repr, Inhabited

/-- The field of a name: as declared or as generated, else under the casing of public
names. -/
def Shape.field? (shape : Shape) (naming : NameStyle) (name : String) : Option Field :=
  (shape.fields.find? fun field => field.name = name || field.emitted = name).orElse fun _ =>
    shape.fields.find? fun field => naming.publicName field.name = naming.publicName name

/-- The records a type names. -/
def ResolvedType.recordNames : ResolvedType → List String
  | .record name => [name]
  | .list element => element.recordNames
  | .nullable inner => inner.recordNames
  | .reference key _ => key.recordNames
  | .scalar _ | .enum _ => []

/-- The records the fields of a shape name. -/
def Shape.recordNames (shape : Shape) : List String :=
  shape.fields.flatMap fun field => field.type.recordNames

/-! ### Catalogs -/

/-- The resolved types of a sheet. -/
structure Catalog where
  naming : NameStyle
  /-- Enumerations by declared name. -/
  enums : List (String × EnumDecl)
  /-- Shapes of records by declared name. -/
  records : List (String × Shape)
  /-- Declared names of types by generated name. -/
  aliases : List (String × String)
  /-- The shape of the data rows. -/
  entity : Option Shape
  /-- The shape of the constants. -/
  constants : Shape
  deriving Repr

namespace Catalog

/-- A reference to the rows of a sheet. A list refers item by item. -/
def referTo (target : String) : ResolvedType → ResolvedType
  | .list element => .list (.reference element target)
  | key => .reference key target

/-- The resolved field of a design. -/
def designField (scope : Scope) (naming : NameStyle) (field : EntityField) :
    Except Fault Field := do
  let type ← scope.resolve field.typeCell field.type
  let type := match field.reference with
    | some target => referTo target type
    | none => type
  return ⟨field.name, naming.publicName field.name, type, field.optional⟩

/-- The resolved field of a constant. -/
def constantField (scope : Scope) (naming : NameStyle) (field : ConstantDecl) :
    Except Fault Field := do
  let type ← scope.resolve field.typeCell field.type
  return ⟨field.name, naming.publicName field.name, type, false⟩

/-- The resolved field of a record. -/
def recordField (scope : Scope) (naming : NameStyle) (field : FieldDecl) : Except Fault Field := do
  let type ← scope.resolve field.typeCell field.type
  return ⟨field.name, naming.recordField field.name, type, field.optional⟩

/-- The resolved shape of a record. -/
def recordShape (scope : Scope) (naming : NameStyle) (record : RecordDecl) :
    Except Fault Shape := do
  return ⟨← record.fields.mapM (recordField scope naming)⟩

/-- The next record to resolve: the first pending name of a record without a shape. -/
def nextRecord? (scope : Scope) (resolved : List (String × Shape)) (pending : List String) :
    Option (String × RecordDecl) :=
  pending.findSome? fun name =>
    if OrderedMap.contains resolved name then none
    else (scope.record? name).map fun record => (name, record)

/-- Resolves pending records and those that they name, for at most the given number of
rounds. What a record names comes before what was pending, the last name first. -/
def resolveRecords (scope : Scope) (naming : NameStyle) :
    Nat → List (String × Shape) → List String → Except Fault (List (String × Shape))
  | 0, resolved, _ => .ok resolved
  | rounds + 1, resolved, pending =>
    match nextRecord? scope resolved pending with
    | none => .ok resolved
    | some (name, record) => do
      let shape ← recordShape scope naming record
      resolveRecords scope naming rounds (resolved ++ [(name, shape)])
        (shape.recordNames.reverse ++ pending)

/-- The shape of the data rows of a sheet, if it has a design. -/
def entityShape (scope : Scope) (naming : NameStyle) (schema : Schema) :
    Except Fault (Option Shape) :=
  match schema.design? with
  | some (_, design) => do return some ⟨← design.fields.mapM (designField scope naming)⟩
  | none => .ok none

/-- The shape of the constants of a sheet. -/
def constantShape (scope : Scope) (naming : NameStyle) (schema : Schema) : Except Fault Shape := do
  return ⟨← (schema.constants?.getD []).mapM (constantField scope naming)⟩

/-- The records that a sheet needs first: its own, then those of its data rows and of
its constants. -/
def pendingRecords (schema : Schema) (entity : Option Shape) (constants : Shape) : List String :=
  (schema.records.map fun (block, _) => block.label) ++
    (entity.getD default).recordNames ++ constants.recordNames

/-- The catalog of a sheet among others. -/
def ofSchemas (schema : Schema) (others : List Schema) (naming : NameStyle) :
    Except Fault Catalog := do
  let scope ← Scope.ofSchemas schema others naming
  let entity ← entityShape scope naming schema
  let constants ← constantShape scope naming schema
  let pending := pendingRecords schema entity constants
  let records ← resolveRecords scope naming scope.recordCount [] pending.reverse
  return ⟨naming, scope.enums, records, scope.aliases, entity, constants⟩

/-- The declared name that a name stands for. -/
def declaredName (catalog : Catalog) (name : String) : String :=
  (OrderedMap.get? catalog.aliases name).getD name

/-- The enumeration of a name. -/
def enum? (catalog : Catalog) (name : String) : Option EnumDecl :=
  OrderedMap.get? catalog.enums (catalog.declaredName name)

/-- The shape of the record of a name. -/
def record? (catalog : Catalog) (name : String) : Option Shape :=
  OrderedMap.get? catalog.records (catalog.declaredName name)

/-- The field of a shape that a name stands for. -/
def field? (catalog : Catalog) (shape : Shape) (name : String) : Option Field :=
  shape.field? catalog.naming name

/-! ### Enumerations -/

/-- The value of a member. -/
def memberValue (catalog : Catalog) (member : Member) : Value :=
  .enum (catalog.naming.enumMember member.name)

/-- The value of a number: the first member that has it, else the number itself, which
has to fit the type of the enumeration. -/
def numberValue? (catalog : Catalog) (block : EnumDecl) (n : Int) : Option Value :=
  if block.backing.holds n then
    match block.members.find? fun member => member.value = n with
    | some member => some (catalog.memberValue member)
    | none => some (.ofInteger n)
  else none

/-- The value of a text: a member by declared or generated name, or a number. -/
def ofEnumText? (catalog : Catalog) (name text : String) : Option Value := do
  let block ← catalog.enum? name
  let text := Text.trim text
  let named := block.members.find? fun member =>
    member.name = text || catalog.naming.enumMember member.name = text
  match named with
  | some member => return catalog.memberValue member
  | none => catalog.numberValue? block (← Text.wideInteger? text.toList)

/-- The first member with the number zero, or the number itself. -/
def enumZero (catalog : Catalog) (name : String) : Value :=
  match (catalog.enum? name).bind fun block => block.members.find? fun m => m.value = 0 with
  | some member => catalog.memberValue member
  | none => .int 0

/-! ### Values nothing was written to -/

/-- What a field of a new record holds. A record in a record is left out. -/
def blank (catalog : Catalog) : ResolvedType → Value
  | .scalar s => s.zero
  | .enum name => catalog.enumZero name
  | .record _ => .null
  | .list _ => .list []
  | .nullable _ => .null
  | .reference key _ => catalog.blank key

/-- The zero of a type. That of a record has its fields blank. -/
def zero (catalog : Catalog) : ResolvedType → Value
  | .record name =>
    match catalog.record? name with
    | some shape => .record (OrderedMap.ofList (shape.fields.map fun field =>
        (field.emitted, catalog.blank field.type)))
    | none => .null
  | .reference key _ => catalog.zero key
  | other => catalog.blank other

/-- What a field of a new row holds. A record that is no reference is left out. -/
def rowField (catalog : Catalog) : ResolvedType → Value
  | .record _ => .null
  | type => catalog.zero type

/-- A row before any cell is written to it. -/
def newRow (catalog : Catalog) (shape : Shape) : Value :=
  .record (OrderedMap.ofList (shape.fields.map fun field =>
    (field.emitted, catalog.rowField field.type)))

/-- What the items of a list are that no cell is written to. Texts are left out. -/
def filler (catalog : Catalog) (element : ResolvedType) : Value :=
  match element.stored with
  | .scalar .string => .null
  | type => catalog.zero type

end Catalog
end TypedSheets

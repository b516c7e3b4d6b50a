import TypedSheets.Fault
import TypedSheets.NameStyle

/-!
# Names of types in scope

A sheet sees its own enumerations and records, and the global ones of the other
sheets; of two with one name its own comes first, then that of the earlier sheet. A
type cell may name a type as it is declared or as it is named in generated code.

## Main definitions

* `Declaration` — an enumeration or a record.
* `Scope` — the declarations a sheet sees, by name, and their generated names.
* `Scope.ofSchemas` — the scope of a sheet among others.
* `Scope.resolve` — a type as written with its names resolved.
-/

namespace TypedSheets

/-- A declaration of a type. -/
inductive Declaration where
  | enum (block : EnumDecl)
  | record (block : RecordDecl)
  deriving DecidableEq, Repr

namespace Declaration

/-- Whether other sheets see a declaration. -/
def isGlobal : Declaration → Bool
  | enum block => block.isGlobal
  | record block => block.isGlobal

/-- The enumeration of a declaration. -/
def enum? : Declaration → Option EnumDecl
  | enum block => some block
  | record _ => none

/-- The record of a declaration. -/
def record? : Declaration → Option RecordDecl
  | enum _ => none
  | record block => some block

/-- The name of a declared type in generated code. -/
def generatedName (naming : NameStyle) (name : String) : Declaration → String
  | enum _ => naming.enumName name
  | record _ => naming.recordName name

end Declaration

/-- The types a sheet declares, enumerations first. -/
def Schema.declarations (schema : Schema) : List (Block × Declaration) :=
  (schema.enums.map fun (block, body) => (block, .enum body)) ++
    schema.records.map fun (block, body) => (block, .record body)

/-- The types in scope of a sheet. -/
structure Scope where
  /-- Declarations by declared name. -/
  declared : List (String × Declaration)
  /-- Declared names by generated name, where the two differ. -/
  aliases : List (String × String)
  deriving Repr

namespace Scope

/-- The declarations of a sheet by name. `seen` holds the names before them with their
cells; no name may occur twice. -/
def ownNames : List (Block × Declaration) → List (String × Cell) →
    Except Fault (List (String × Declaration))
  | [], _ => .ok []
  | (block, declaration) :: rest, seen =>
    match OrderedMap.get? seen block.label with
    | some first => .error (.repeatedType block.label block.origin first)
    | none => do
      let names ← ownNames rest (OrderedMap.insert seen block.label block.origin)
      return (block.label, declaration) :: names

/-- The global declarations of the sheets other than a given one, in their order. -/
def globals (sheet : String) (others : List Schema) : List (String × Declaration) :=
  ((others.filter fun other => other.sheet ≠ sheet).flatMap Schema.declarations).filterMap
    fun (block, declaration) =>
      if declaration.isGlobal then some (block.label, declaration) else none

/-- The generated names that are no declared name, each with the first type it names. -/
def aliasesOf (naming : NameStyle) (declared : List (String × Declaration)) :
    List (String × String) :=
  declared.foldl (fun aliases (name, declaration) =>
    let generated := declaration.generatedName naming name
    if generated ≠ name && !OrderedMap.contains declared generated then
      OrderedMap.insertNew aliases generated name
    else aliases) []

/-- The scope of a sheet among others. -/
def ofSchemas (schema : Schema) (others : List Schema) (naming : NameStyle) :
    Except Fault Scope := do
  let own ← ownNames schema.declarations []
  let declared := (globals schema.sheet others).foldl
    (fun declared (name, declaration) => OrderedMap.insertNew declared name declaration) own
  return ⟨declared, aliasesOf naming declared⟩

/-- The declared name that a name stands for. -/
def declaredName (scope : Scope) (name : String) : String :=
  (OrderedMap.get? scope.aliases name).getD name

/-- The record declared under a name. -/
def record? (scope : Scope) (name : String) : Option RecordDecl :=
  (OrderedMap.get? scope.declared name).bind Declaration.record?

/-- The enumerations in scope. -/
def enums (scope : Scope) : List (String × EnumDecl) :=
  scope.declared.filterMap fun (name, declaration) =>
    declaration.enum?.map fun block => (name, block)

/-- The number of records in scope. -/
def recordCount (scope : Scope) : Nat :=
  (scope.declared.filter fun entry => entry.2.record?.isSome).length

/-- A type with its names resolved. `cell` is where it was written. -/
def resolve (scope : Scope) (cell : Cell) : WrittenType → Except Fault ResolvedType
  | .scalar s => .ok (.scalar s)
  | .list element => (scope.resolve cell element).map .list
  | .nullable inner => (scope.resolve cell inner).map .nullable
  | .named name =>
    let key := scope.declaredName name
    match OrderedMap.get? scope.declared key with
    | some (.enum _) => .ok (.enum key)
    | some (.record _) => .ok (.record key)
    | none => .error (.undefinedType name cell)

end Scope
end TypedSheets

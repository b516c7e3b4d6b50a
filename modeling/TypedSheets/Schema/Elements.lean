import TypedSheets.Schema.Columns
import TypedSheets.Type.Reader

/-!
# Elements of a block

How the rows of a block become its declarations. Every kind with elements is read
the same way: row by row, each row checked for missing text, then for a name that
an earlier row has, then by the reader of its kind. The first fault ends the block.

## Main definitions

* `Table.readRows` — the elements of a list of rows.
* `EnumDecl.read`, `RecordDecl.read`, `ConstantDecl.readAll`, `DesignDecl.read` — the
  kinds with elements.
* `Block.read` — a block of any kind, from the rectangle it fills.
-/

namespace TypedSheets

namespace Table

/-- The elements of a list of rows. `seen` holds the names of earlier rows with their
cells; `step` reads one element, given its row and name, and passes a state on. -/
def readRows {σ α : Type} (table : Table)
    (step : σ → Nat → String → Except Fault (σ × α)) :
    List Nat → List (String × Cell) → σ → Except Fault (List α)
  | [], _, _ => .ok []
  | row :: rows, seen, state => do
    table.checkRow row
    let name ← table.required row "Name"
    let cell := table.place row "Name"
    match OrderedMap.get? seen name with
    | some first => throw (.repeatedElement name cell first)
    | none =>
      let (state, element) ← step state row name
      let elements ← readRows table step rows (OrderedMap.insert seen name cell) state
      return element :: elements

/-- The elements of a table whose kind passes nothing from row to row. -/
def readAll {α : Type} (dialect : Dialect) (table : Table)
    (read : Nat → String → Except Fault α) : Except Fault (List α) :=
  table.readRows (fun (_ : Unit) row name => (read row name).map fun element => ((), element))
    (table.elementRows dialect) [] ()

/-- The type of an element. -/
def typeOf (table : Table) (row : Nat) : Except Fault WrittenType := do
  let text ← table.required row "Type"
  match WrittenType.read? text with
  | some type => return type
  | none => throw (.badType text (table.place row "Type"))

/-- Whether an element is optional, which only a nullable type allows. -/
def optional (table : Table) (row : Nat) (type : WrittenType) : Except Fault Bool := do
  let optional ← table.flag row "Optional"
  if optional && !type.isNullable then
    throw (.notNullable type (table.place row "Optional"))
  else return optional

end Table

/-! ### Enumerations -/

/-- The columns of an enumeration. -/
def enumColumns : List Column := [.required "Name", .extra "Value", .extra "Comment"]

/-- The number written for a member, if any. -/
def explicitValue (table : Table) (backing : Scalar) (row : Nat) :
    Except Fault (Option Int) :=
  match table.text? row "Value" with
  | none => .ok none
  | some text =>
    match Text.wideInteger? text.toList with
    | some value => .ok (some value)
    | none => .error (.notAnInteger text backing (table.place row "Value"))

/-- A member of an enumeration, and the number that a member after it would have. A
member without a number takes `next`. -/
def Member.read (table : Table) (backing : Scalar) (next : Int) (row : Nat) (name : String) :
    Except Fault (Int × Member) := do
  let explicit ← explicitValue table backing row
  let value := explicit.getD next
  if backing.holds value then
    return (value + 1, ⟨name, explicit, value, table.text? row "Comment", table.origin row⟩)
  else throw (.outOfRange value name backing (table.place row "Value"))

/-- Whether a header holds an option, given in Pascal casing. -/
def carriesOption (dialect : Dialect) (options : List String) (option : String) : Bool :=
  options.contains (dialect.toSheet option)

/-- The type of an enumeration: the first option that is an integer keyword, or that
of the dialect. -/
def enumScalar (dialect : Dialect) (options : List String) : Scalar :=
  ((options.filterMap Scalar.ofKeyword?).find? Scalar.isInteger).getD dialect.enumBacking

/-- Reads an enumeration. Its members count up from zero. -/
def EnumDecl.read (dialect : Dialect) (view : View) (options : List String) :
    Except Fault EnumDecl := do
  let backing := enumScalar dialect options
  let table ← Table.ofView dialect view enumColumns
  let members ← table.readRows (Member.read table backing) (table.elementRows dialect) [] 0
  return ⟨carriesOption dialect options "Global", backing, members⟩

/-! ### Records -/

/-- The columns of a record. -/
def recordColumns : List Column :=
  [.required "Name", .required "Type", .extra "Optional", .extra "Comment"]

/-- A field of a record. -/
def FieldDecl.read (table : Table) (row : Nat) (name : String) : Except Fault FieldDecl := do
  let type ← table.typeOf row
  let optional ← table.optional row type
  return ⟨name, type, optional, table.text? row "Comment", table.origin row,
    table.place row "Type"⟩

/-- Reads a record. -/
def RecordDecl.read (dialect : Dialect) (view : View) (options : List String) :
    Except Fault RecordDecl := do
  let table ← Table.ofView dialect view recordColumns
  let fields ← table.readAll dialect (FieldDecl.read table)
  return ⟨carriesOption dialect options "Global", fields⟩

/-! ### Constants -/

/-- The columns of a constant block. -/
def constantColumns : List Column :=
  [.required "Name", .required "Type", .required "Value", .extra "Comment"]

/-- A constant. Its value is kept as written. -/
def ConstantDecl.read (table : Table) (row : Nat) (name : String) :
    Except Fault ConstantDecl := do
  let type ← table.typeOf row
  return ⟨name, type, (table.raw? row "Value").getD "", table.text? row "Comment",
    table.origin row, table.place row "Type", table.place row "Value"⟩

/-- Reads a block of constants. -/
def ConstantDecl.readAll (dialect : Dialect) (view : View) : Except Fault (List ConstantDecl) := do
  let table ← Table.ofView dialect view constantColumns
  table.readAll dialect (ConstantDecl.read table)

/-! ### Designs -/

/-- The columns of a design. -/
def designColumns : List Column :=
  [.required "Name", .required "Type", .requiredHeader "IsPrimaryKey", .extra "Reference",
   .extra "Optional", .extra "Comment"]

/-- A field of a design. -/
def EntityField.read (table : Table) (row : Nat) (name : String) : Except Fault EntityField := do
  let type ← table.typeOf row
  let optional ← table.optional row type
  let isKey ← table.flag row "IsPrimaryKey"
  return ⟨name, type, isKey, table.text? row "Reference", optional, table.text? row "Comment",
    table.origin row, table.place row "Type"⟩

/-- The interfaces a design names, between commas and blanks. -/
def interfaceNames (text : String) : List String :=
  ((text.toList.splitOnP fun c => c = ',' || Text.isBlankChar c).filter fun piece =>
    !piece.isEmpty).map String.ofList

/-- Reads a design, which needs a key. -/
def DesignDecl.read (dialect : Dialect) (view : View) : Except Fault DesignDecl := do
  let interfaces := ((view.text? 0 1).map interfaceNames).getD []
  let table ← Table.ofView dialect view designColumns
  let fields ← table.readAll dialect (EntityField.read table)
  if fields.any (·.isKey) then return ⟨interfaces, fields⟩
  else throw (.missingKey (view.place 0 0))

/-! ### Blocks -/

/-- The text of a description, in the cell below its header. -/
def descriptionText (view : View) : Except Fault String :=
  match view.text? 1 0 with
  | some text => .ok (Text.trim text)
  | none => .error (.missingText (view.place 1 0))

/-- The name of a block, for the kinds that have one. -/
def blockName (kind : BlockKind) (view : View) : Except Fault (Option String) :=
  if kind.isNamed then
    match view.text? 0 1 with
    | some name => .ok (some (Text.trim name))
    | none => .error (.missingName kind (view.place 0 1))
  else .ok none

/-- What a block of a kind declares. -/
def BlockContent.read (dialect : Dialect) (kind : BlockKind) (view : View) (options : List String) :
    Except Fault BlockContent :=
  match kind with
  | .description => (descriptionText view).map .description
  | .enum => (EnumDecl.read dialect view options).map .enum
  | .record => (RecordDecl.read dialect view options).map .record
  | .interface => .ok .interface
  | .constant => (ConstantDecl.readAll dialect view).map .constant
  | .design => (DesignDecl.read dialect view).map .design

/-- Reads a block from the rectangle it fills, its header in the first row. -/
def Block.read (dialect : Dialect) (kind : BlockKind) (view : View) : Except Fault Block := do
  let options := (((view.text? 0 0).map headerWords).getD []).drop 1
  let name ← blockName kind view
  let body ← BlockContent.read dialect kind view options
  return ⟨name, options, (view.text? 0 2).map Text.trim, view.place 0 0, body⟩

end TypedSheets

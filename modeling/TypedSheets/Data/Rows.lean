import TypedSheets.Data.Literal
import TypedSheets.Data.Path
import TypedSheets.Data.Layout

/-!
# Data rows and constants

A data row becomes one value: a new row to which the cells of the columns are
written one after another, from left to right. Lists grow to the index written to,
and records on the way are created. No two rows may have the same key.

## Main definitions

* `Catalog.writeAt` — a value with another one written at the end of some steps.
* `Catalog.readRow` — the value of a data row.
* `Catalog.readRows` — the values of the data rows, keys checked.
* `Catalog.readConstants` — the constants of a sheet as one record.
* `SheetValues`, `SheetValues.read` — all data of a sheet.
-/

namespace TypedSheets

namespace Catalog

/-- Items filled up to a length. -/
def padded (length : Nat) (filler : Value) (items : List Value) : List Value :=
  items ++ List.replicate (length - items.length) filler

/-- What a step finds in a slot that further steps go into: if nothing is there, the
zero of its type. -/
def opened (catalog : Catalog) (type : ResolvedType) (rest : List Step) (slot : Value) : Value :=
  if !rest.isEmpty && slot.isNull then catalog.zero type.bare else slot

/-- A value with another one written at the end of some steps, or the container that a
step did not find. -/
def writeAt (catalog : Catalog) : List Step → Value → Value → Except Container Value
  | [], value, _ => .ok value
  | .field name type :: rest, value, target =>
    match target with
    | .record fields => do
      let slot := (OrderedMap.get? fields name).getD .null
      let slot ← catalog.writeAt rest value (catalog.opened type rest slot)
      return .record (OrderedMap.insert fields name slot)
    | _ => .error .record
  | .index i type :: rest, value, target =>
    match target with
    | .list items => do
      let items := padded (i + 1) (catalog.filler type) items
      let slot ← catalog.writeAt rest value (catalog.opened type rest (items.getD i .null))
      return .list (items.set i slot)
    | _ => .error .list

/-- A row with one of its cells written to it. -/
def writeCell (catalog : Catalog) (view : View) (row : Nat) (value : Value) (plan : Plan) :
    Except Fault Value :=
  let cell := view.place row plan.col
  match view.text? row plan.col with
  | none => if plan.mayBeBlank then .ok value else .error (.missingValue plan.path cell)
  | some text =>
    match catalog.ofText plan.leaf text with
    | .error e => .error (.mismatch e cell)
    | .ok converted =>
      match catalog.writeAt plan.steps converted value with
      | .ok written => .ok written
      | .error expected => .error (.unreachable plan.path expected cell)

/-- The value of a data row. -/
def readRow (catalog : Catalog) (view : View) (entity : Shape) (plans : List Plan) (row : Nat) :
    Except Fault Value :=
  plans.foldlM (catalog.writeCell view row) (catalog.newRow entity)

/-- The key of a row. -/
def keyOf (names : List String) (value : Value) : Key :=
  ⟨names.map fun name => (value.get? name).getD .null⟩

/-- The values of data rows. `seen` holds the keys of the rows before them. -/
def readRows (catalog : Catalog) (view : View) (entity : Shape) (plans : List Plan)
    (keys : List String) : List Nat → List (Key × Nat) → Except Fault (List Value)
  | [], _ => .ok []
  | row :: rows, seen => do
    let value ← catalog.readRow view entity plans row
    let key := keyOf keys value
    match seen.find? fun entry => key.same entry.1 with
    | some (_, first) => throw (.repeatedKey key (view.place row 0) (view.place first 0))
    | none =>
      let values ← catalog.readRows view entity plans keys rows ((key, row) :: seen)
      return value :: values

/-- The value of a constant under its generated name. -/
def constantValue (catalog : Catalog) (field : ConstantDecl) (resolved : Field) :
    Except Fault (String × Value) :=
  match catalog.ofText resolved.type field.value with
  | .ok value => .ok (resolved.emitted, value)
  | .error e => .error (.constantMismatch field.name e field.valueCell field.typeCell)

/-- The constants of a sheet as one record. -/
def readConstants (catalog : Catalog) (fields : List ConstantDecl) : Except Fault Value := do
  let pairs ← (fields.zip catalog.constants.fields).mapM fun (field, resolved) =>
    catalog.constantValue field resolved
  return .record (OrderedMap.ofList pairs)

end Catalog

/-- The data of a sheet. -/
structure SheetValues where
  /-- The data rows, if the sheet has a design. -/
  rows : Option (List Value)
  /-- The constants, if the sheet has any. -/
  constants : Option Value
  deriving Repr

namespace SheetValues

/-- The data rows of a sheet below its design. -/
def readDesignRows (dialect : Dialect) (catalog : Catalog) (view : View) (block : Block)
    (design : DesignDecl) (entity : Shape) : Except Fault (List Value) := do
  let part ← DataLayout.find dialect view block.origin
  let plans ← Plan.ofRow dialect catalog entity view part.pathRow
  let keys := design.keys.map fun field => catalog.naming.publicName field.name
  catalog.readRows view entity plans keys part.rows []

/-- The data of a sheet: its rows first, then its constants. -/
def read (dialect : Dialect) (schema : Schema) (catalog : Catalog) (view : View) :
    Except Fault SheetValues := do
  let rows ← match schema.design?, catalog.entity with
    | some (block, design), some entity =>
      (readDesignRows dialect catalog view block design entity).map some
    | _, _ => .ok none
  let constants ← match schema.constants? with
    | some fields => (catalog.readConstants fields).map some
    | none => .ok none
  return ⟨rows, constants⟩

end SheetValues
end TypedSheets

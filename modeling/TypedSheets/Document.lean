import TypedSheets.Data.Rows

/-!
# Data documents

The data of a sheet as one JSON tree. Rows and constants are written through their
shapes: fields in the order of the sheet, optional fields left out when they have no
value, and a list always as an array. Rows alone are an array, constants alone an
object; both together are an object of the two.

## Main definitions

* `Value.plain` — a value as it is.
* `Value.typed` — a value through its type.
* `Shape.members` — the members of a record through its shape.
* `SheetValues.document?` — the document of a sheet.
-/

namespace TypedSheets

namespace Value

mutual

/-- A value as it is. -/
def plain : Value → Json
  | null => .null
  | bool b => .bool b
  | int n => .int n
  | uint n => .int n
  | float x => .double x
  | str s => .str s
  | enum name => .str name
  | list items => .arr (plainList items)
  | record fields => .obj (plainFields fields)

/-- Values as they are. -/
def plainList : List Value → List Json
  | [] => []
  | item :: items => item.plain :: plainList items

/-- Fields as they are. -/
def plainFields : List (String × Value) → List (String × Json)
  | [] => []
  | (name, value) :: fields => (name, value.plain) :: plainFields fields

end

/-- What the absence of a value is written as: an empty array for a list. -/
def typedNull (type : ResolvedType) : Json := if type.bare.isList then .arr [] else .null

end Value

/-- How a value is written, given its type. -/
structure Writer where
  isNull : Bool
  write : ResolvedType → Json

/-- The members of a record by what its fields hold. Fields it lacks have no value. -/
def Shape.members (shape : Shape) (writers : List (String × Writer)) : List (String × Json) :=
  shape.fields.filterMap fun field =>
    let writer := (OrderedMap.get? writers field.emitted).getD ⟨true, Value.typedNull⟩
    if field.optional && writer.isNull then none else some (field.emitted, writer.write field.type)

namespace Value

mutual

/-- A value through its type. -/
def typed (catalog : Catalog) : Value → ResolvedType → Json
  | null, type => typedNull type
  | list items, type =>
    match type.bare with
    | .list element => .arr (typedList catalog items element)
    | _ => .arr (plainList items)
  | record fields, type =>
    match type.bare with
    | .record name =>
      match catalog.record? name with
      | some shape => .obj (shape.members (writers catalog fields))
      | none => .obj (plainFields fields)
    | _ => .obj (plainFields fields)
  | bool b, _ => .bool b
  | int n, _ => .int n
  | uint n, _ => .int n
  | float x, _ => .double x
  | str s, _ => .str s
  | enum name, _ => .str name

/-- The items of a list through their type. -/
def typedList (catalog : Catalog) : List Value → ResolvedType → List Json
  | [], _ => []
  | item :: items, element => typed catalog item element :: typedList catalog items element

/-- How the fields of a record are written. -/
def writers (catalog : Catalog) : List (String × Value) → List (String × Writer)
  | [] => []
  | (name, value) :: fields => (name, ⟨value.isNull, typed catalog value⟩) :: writers catalog fields

end

/-- A record through its shape. -/
def shaped (catalog : Catalog) (shape : Shape) : Value → Json
  | record fields => .obj (shape.members (writers catalog fields))
  | _ => .null

end Value

namespace SheetValues

/-- The rows of a sheet as an array. -/
def rowsJson? (catalog : Catalog) (data : SheetValues) : Option Json := do
  let rows ← data.rows
  let shape ← catalog.entity
  return .arr (rows.map (Value.shaped catalog shape))

/-- The constants of a sheet as an object. -/
def constantsJson? (catalog : Catalog) (data : SheetValues) : Option Json :=
  data.constants.map (Value.shaped catalog catalog.constants)

/-- The document of a sheet; `none` without rows and constants. -/
def document? (catalog : Catalog) (data : SheetValues) : Option Json :=
  match data.constantsJson? catalog, data.rowsJson? catalog with
  | some constants, some rows => some (.obj [("item1", constants), ("item2", rows)])
  | some constants, none => some constants
  | none, some rows => some rows
  | none, none => none

end SheetValues
end TypedSheets

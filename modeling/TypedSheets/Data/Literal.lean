import TypedSheets.Catalog.Basic
import TypedSheets.Json.Reader

/-!
# Cell texts to values

A cell of a scalar or an enumeration holds a literal; a cell of a list or a record
holds JSON, which is read against the type. References and `?` do not change what a
text means; only for JSON's `null` does it count whether the type is nullable.

## Main definitions

* `Scalar.ofJson?` — a scalar from a JSON tree.
* `Catalog.ofJson` — a value of a type from a JSON tree.
* `Catalog.ofText` — a value of a type from the text of a cell.
-/

namespace TypedSheets

/-- A number as a value of a fractional type. -/
def Scalar.ofDouble? (s : Scalar) (x : Double) : Option Value :=
  match s with
  | .float => if x.isFinite && x.fitsSingle then some (.float x) else none
  | .double | .decimal => if x.isFinite then some (.float x) else none
  | _ => none

/-- A scalar from a JSON tree. A text is read as a cell would be; a whole number is also
a fractional one. -/
def Scalar.ofJson? (s : Scalar) : Json → Option Value
  | .str text => s.value? text
  | .bool b => if s = .bool then some (.bool b) else none
  | .int n => if s.holds n then some (.ofInteger n) else s.ofDouble? (.ofInt n)
  | .double x => s.ofDouble? x
  | .null | .arr _ | .obj _ => none

namespace Catalog

/-- That a JSON tree is no value of a type. -/
def notOfType (type : ResolvedType) (json : Json) : Mismatch := ⟨type.text, json.compact⟩

/-- The value of JSON's `null`. -/
def ofNull (type : ResolvedType) : Except Mismatch Value :=
  match type.stored with
  | .nullable _ | .record _ | .scalar .string => .ok .null
  | .list _ => .ok (.list [])
  | _ => .error (notOfType type .null)

/-- The value of a tree that is neither list nor record. -/
def ofLeaf (catalog : Catalog) (type : ResolvedType) (json : Json) : Except Mismatch Value :=
  let value := match type with
    | .scalar s => s.ofJson? json
    | .enum name =>
      match json with
      | .str text => catalog.ofEnumText? name text
      | .int n => catalog.ofEnumText? name (toString n)
      | .double x => catalog.ofEnumText? name (Json.doubleText x)
      | _ => none
    | _ => none
  match value with
  | some value => .ok value
  | none => .error (notOfType type json)

/-- The fields of a zero record, for a value to be filled in. -/
def zeroFields (catalog : Catalog) (type : ResolvedType) : List (String × Value) :=
  ((catalog.zero type).fields?).getD []

mutual

/-- The value of a JSON tree. -/
def ofJson (catalog : Catalog) : Json → ResolvedType → Except Mismatch Value
  | .null, type => ofNull type
  | .bool b, type => catalog.ofLeaf type.bare (.bool b)
  | .int n, type => catalog.ofLeaf type.bare (.int n)
  | .double x, type => catalog.ofLeaf type.bare (.double x)
  | .str s, type => catalog.ofLeaf type.bare (.str s)
  | .arr items, type =>
    match type.bare with
    | .list element => (ofItems catalog items element).map .list
    | other => .error (notOfType other (.arr items))
  | .obj members, type =>
    match type.bare with
    | .record name =>
      match catalog.record? name with
      | some shape =>
        (ofMembers catalog (notOfType (.record name) (.obj members)) shape members
          (catalog.zeroFields (.record name))).map .record
      | none => .error (notOfType (.record name) (.obj members))
    | other => .error (notOfType other (.obj members))

/-- The values of the items of a list. -/
def ofItems (catalog : Catalog) : List Json → ResolvedType → Except Mismatch (List Value)
  | [], _ => .ok []
  | item :: items, element => do
    let value ← ofJson catalog item element
    return value :: (← ofItems catalog items element)

/-- Fields with the members of an object set. A member that names no field is the given
error. -/
def ofMembers (catalog : Catalog) (unknown : Mismatch) (shape : Shape) :
    List (String × Json) → List (String × Value) → Except Mismatch (List (String × Value))
  | [], fields => .ok fields
  | (name, item) :: members, fields =>
    match catalog.field? shape name with
    | some field => do
      let value ← ofJson catalog item field.type
      ofMembers catalog unknown shape members (OrderedMap.insert fields field.emitted value)
    | none => .error unknown

end

/-- The value of the text of a cell. -/
def ofText (catalog : Catalog) (type : ResolvedType) (text : String) : Except Mismatch Value :=
  match type.bare with
  | .scalar s => s.read text
  | .enum name =>
    match catalog.ofEnumText? name text with
    | some value => .ok value
    | none => .error ⟨name, text⟩
  | other =>
    match Json.read? text with
    | some json => catalog.ofJson json other
    | none => .error ⟨other.text, text⟩

end Catalog
end TypedSheets

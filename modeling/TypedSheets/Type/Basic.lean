import TypedSheets.Scalar

/-!
# Types of fields

A type cell holds a type expression: a scalar keyword, a name, a list of a type or
a nullable type. Once names are resolved it is a field type, where a name is known
to be an enumeration or a record, and where a field may also hold the key of a row
of another sheet.

## Main definitions

* `WrittenType` — types as written, with their text.
* `ResolvedType` — resolved types, with their text.
* `ResolvedType.stored` — the type of what a cell stores: a reference stores its key.
* `ResolvedType.bare` — the type a path goes on from: also without `?`.
-/

namespace TypedSheets

/-- A type as written in a cell. -/
inductive WrittenType where
  | scalar (s : Scalar)
  /-- The name of an enumeration or record, in the casing of the sheet. -/
  | named (name : String)
  | list (element : WrittenType)
  | nullable (inner : WrittenType)
  deriving DecidableEq, Repr, Inhabited

namespace WrittenType

/-- The text of a type. -/
def text : WrittenType → String
  | scalar s => s.keyword
  | named name => name
  | list element => "List<" ++ element.text ++ ">"
  | nullable inner => inner.text ++ "?"

/-- Whether a type is a list, seen from outside. -/
def isList : WrittenType → Bool
  | list _ => true
  | _ => false

/-- Whether a type is nullable, seen from outside. -/
def isNullable : WrittenType → Bool
  | nullable _ => true
  | _ => false

/-- Whether a type is a scalar keyword. -/
def isScalar : WrittenType → Bool
  | scalar _ => true
  | _ => false

/-- The keyword or name inside a type. -/
def leaf : WrittenType → WrittenType
  | list element => element.leaf
  | nullable inner => inner.leaf
  | other => other

end WrittenType

/-- A type whose names are resolved. -/
inductive ResolvedType where
  | scalar (s : Scalar)
  /-- An enumeration, by its declared name. -/
  | enum (name : String)
  /-- A record, by its declared name. -/
  | record (name : String)
  | list (element : ResolvedType)
  | nullable (inner : ResolvedType)
  /-- The key of a row of the sheet `target`. What is stored is the key. -/
  | reference (key : ResolvedType) (target : String)
  deriving DecidableEq, Repr, Inhabited

namespace ResolvedType

/-- The text of a type; a reference reads as its key. -/
def text : ResolvedType → String
  | scalar s => s.keyword
  | enum name => name
  | record name => name
  | list element => "List<" ++ element.text ++ ">"
  | nullable inner => inner.text ++ "?"
  | reference key _ => key.text

/-- Whether a type is a list, seen from outside. -/
def isList : ResolvedType → Bool
  | list _ => true
  | _ => false

/-- Whether a type is nullable, seen from outside. -/
def isNullable : ResolvedType → Bool
  | nullable _ => true
  | _ => false

/-- The type of the items of a list. -/
def element? : ResolvedType → Option ResolvedType
  | list element => some element
  | _ => none

/-- The type of what a cell stores: a reference stores its key. -/
def stored : ResolvedType → ResolvedType
  | reference key _ => key.stored
  | other => other

/-- The type a path goes on from: neither `?` nor a reference is in its way. -/
def bare : ResolvedType → ResolvedType
  | nullable inner => inner.bare
  | reference key _ => key.bare
  | other => other

end ResolvedType
end TypedSheets

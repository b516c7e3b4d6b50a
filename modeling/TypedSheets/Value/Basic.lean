import TypedSheets.Double.Format
import TypedSheets.OrderedMap

/-!
# Data values

What a cell, a constant or a whole data row becomes once its text is read against
the schema. Integers come in a signed and an unsigned kind, which are never the
same value; a reader gives the signed kind to every number that has one. The
fields of a record keep the order in which they were first set.

## Main definitions

* `Value` — the values.
* `Value.ofInteger` — an integer as a value of the narrower kind.
* `Value.get?` — a field of a record.
* `Value.display` — the text of a value in messages.
-/

namespace TypedSheets

/-- A data value. -/
inductive Value where
  /-- No value. -/
  | null
  /-- A truth value. -/
  | bool (b : Bool)
  /-- A signed integer of sixty-four bits. -/
  | int (n : Int)
  /-- An unsigned integer of sixty-four bits. -/
  | uint (n : Nat)
  /-- A number in double precision. -/
  | float (x : Double)
  /-- A text. -/
  | str (s : String)
  /-- A member of an enumeration, by the name it has in generated code. -/
  | enum (name : String)
  /-- A list. -/
  | list (items : List Value)
  /-- A record, by the names its fields have in generated code. -/
  | record (fields : List (String × Value))
  deriving Repr, Inhabited

namespace Value

/-- The least signed integer. -/
def minInt : Int := -9223372036854775808

/-- The greatest signed integer. -/
def maxInt : Int := 9223372036854775807

/-- The greatest unsigned integer. -/
def maxUInt : Int := 18446744073709551615

/-- An integer as a signed value if it fits, else as an unsigned one. Outside both
ranges the nearest end is taken; readers check the range of a type first. -/
def ofInteger (n : Int) : Value :=
  if minInt ≤ n ∧ n ≤ maxInt then .int n
  else if 0 ≤ n ∧ n ≤ maxUInt then .uint n.toNat
  else if n < 0 then .int minInt
  else .uint maxUInt.toNat

/-- Whether a value is absent. -/
def isNull : Value → Bool
  | .null => true
  | _ => false

/-- The items of a list. -/
def items? : Value → Option (List Value)
  | .list items => some items
  | _ => none

/-- The fields of a record. -/
def fields? : Value → Option (List (String × Value))
  | .record fields => some fields
  | _ => none

/-- A field of a record, by name. -/
def get? (value : Value) (name : String) : Option Value :=
  value.fields?.bind fun fields => OrderedMap.get? fields name

mutual

/-- The text of a value in messages. -/
def display : Value → String
  | .null => "null"
  | .bool b => if b then "true" else "false"
  | .int n => toString n
  | .uint n => toString n
  | .float x => x.format .plain
  | .str s => s
  | .enum name => name
  | .list items => "[" ++ ", ".intercalate (displayList items) ++ "]"
  | .record fields => "\x7b" ++ ", ".intercalate (displayFields fields) ++ "\x7d"

/-- The texts of the items of a list. -/
def displayList : List Value → List String
  | [] => []
  | item :: items => item.display :: displayList items

/-- The texts of the fields of a record, each behind its name. -/
def displayFields : List (String × Value) → List String
  | [] => []
  | (name, value) :: fields => (name ++ ": " ++ value.display) :: displayFields fields

end

end Value
end TypedSheets

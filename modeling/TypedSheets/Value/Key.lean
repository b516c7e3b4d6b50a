import TypedSheets.Value.Basic

/-!
# Keys of rows

The primary key of a data row is the list of the values of its key fields. Two
rows clash when their keys are the same: part by part, where the two zeros count
as one number and so do all undefined ones, and where values of different kinds
never agree.

## Main definitions

* `Value.same`, `Key.same` — sameness of values and of keys.
* `Key.display` — the text of a key, a tuple unless it has one part.
-/

namespace TypedSheets

/-- A number up to the sign of zero. -/
def Double.unsignedZero (x : Double) : Double := if x.isZero then Double.zero false else x

namespace Value

mutual

/-- Whether two values are the same as parts of a key. -/
def same : Value → Value → Bool
  | .null, .null => true
  | .bool a, .bool b => a == b
  | .int a, .int b => a == b
  | .uint a, .uint b => a == b
  | .float a, .float b => a.unsignedZero == b.unsignedZero
  | .str a, .str b => a == b
  | .enum a, .enum b => a == b
  | .list as, .list bs => sameList as bs
  | .record as, .record bs => sameFields as bs
  | _, _ => false

/-- Whether two lists are the same item by item. -/
def sameList : List Value → List Value → Bool
  | [], [] => true
  | a :: as, b :: bs => a.same b && sameList as bs
  | _, _ => false

/-- Whether two records have the same names and values in the same order. -/
def sameFields : List (String × Value) → List (String × Value) → Bool
  | [], [] => true
  | (m, a) :: as, (n, b) :: bs => m == n && a.same b && sameFields as bs
  | _, _ => false

end

end Value

/-- The primary key of a row: the values of its key fields. -/
structure Key where
  parts : List Value
  deriving Repr, Inhabited

namespace Key

/-- Whether two keys clash. -/
def same (a b : Key) : Bool := Value.sameList a.parts b.parts

/-- The text of a key: that of its only part, or a tuple. -/
def display (key : Key) : String :=
  match key.parts with
  | [part] => part.display
  | parts => "(" ++ ", ".intercalate (parts.map Value.display) ++ ")"

end Key
end TypedSheets

import TypedSheets.Double.Reader
import TypedSheets.Text.Blank
import TypedSheets.Value.Basic

/-!
# Scalar types

The fourteen types a cell of the schema can name by a keyword, with the range of
the integer ones, the value each starts out with, and the texts each accepts.

## Main definitions

* `Scalar` — the types, with `Scalar.keyword` and `Scalar.ofKeyword?`.
* `Scalar.range?` — the range of an integer type.
* `Scalar.zero` — the value of a field that nothing was written to.
* `Scalar.read` — the value of a cell text, or a `Mismatch`.
-/

namespace TypedSheets

/-- A scalar type. -/
inductive Scalar where
  | bool
  | byte
  | sbyte
  | short
  | ushort
  | int
  | uint
  | long
  | ulong
  | float
  | double
  | decimal
  | char
  | string
  deriving DecidableEq, Repr, Inhabited

/-- A text that is no value of the type asked for. -/
structure Mismatch where
  /-- The type asked for, as written. -/
  expected : String
  /-- The text. -/
  text : String
  deriving DecidableEq, Repr

/-- The wording of a mismatch. -/
def Mismatch.message (e : Mismatch) : String :=
  s!"`{e.text}` is not a valid `{e.expected}` value"

namespace Scalar

/-- All scalar types. -/
def all : List Scalar :=
  [bool, byte, sbyte, short, ushort, int, uint, long, ulong, float, double, decimal, char, string]

/-- The keyword of a type. -/
def keyword : Scalar → String
  | bool => "bool"
  | byte => "byte"
  | sbyte => "sbyte"
  | short => "short"
  | ushort => "ushort"
  | int => "int"
  | uint => "uint"
  | long => "long"
  | ulong => "ulong"
  | float => "float"
  | double => "double"
  | decimal => "decimal"
  | char => "char"
  | string => "string"

/-- The type of a keyword. -/
def ofKeyword? (text : String) : Option Scalar := all.find? fun s => s.keyword == text

/-- The least and greatest value of an integer type. -/
def range? : Scalar → Option (Int × Int)
  | byte => some (0, 255)
  | sbyte => some (-128, 127)
  | short => some (-32768, 32767)
  | ushort => some (0, 65535)
  | int => some (-2147483648, 2147483647)
  | uint => some (0, 4294967295)
  | long => some (-9223372036854775808, 9223372036854775807)
  | ulong => some (0, 18446744073709551615)
  | _ => none

/-- Whether a type is one of the integer types. -/
def isInteger (s : Scalar) : Bool := s.range?.isSome

/-- Whether a number lies in the range of an integer type. -/
def holds (s : Scalar) (n : Int) : Bool :=
  match s.range? with
  | some (least, greatest) => least ≤ n && n ≤ greatest
  | none => false

/-- The value of a field that nothing was written to. The zero of `ulong` is of the
unsigned kind, that of the other integer types of the signed one. -/
def zero : Scalar → Value
  | bool => .bool false
  | ulong => .uint 0
  | float | double | decimal => .float (Double.zero false)
  | char => .str "\x00"
  | string => .str ""
  | byte | sbyte | short | ushort | int | uint | long => .int 0

/-- Whether a text is a given word in any case. -/
def isWord (word : String) (cs : List Char) : Bool := cs.map Char.toLower == word.toList

/-- Reads a finite number, which for `float` has to fit single precision. -/
def number? (s : Scalar) (cs : List Char) : Option Double :=
  (Double.ofChars? cs).filter fun x => x.isFinite && (s != float || x.fitsSingle)

/-- The value of a text, if it has one. Blanks around it do not count, except that
a `string` is kept as written. -/
def value? (s : Scalar) (text : String) : Option Value :=
  let cs := Text.trimChars text.toList
  match s with
  | string => some (.str text)
  | char => match cs with
    | [c] => some (.str (String.ofList [c]))
    | _ => none
  | bool =>
    if isWord "true" cs then some (.bool true)
    else if isWord "false" cs then some (.bool false)
    else none
  | float | double | decimal => (s.number? cs).map Value.float
  | byte | sbyte | short | ushort | int | uint | long | ulong =>
    ((Text.integer? cs).filter s.holds).map Value.ofInteger

/-- The value of a cell text. -/
def read (s : Scalar) (text : String) : Except Mismatch Value :=
  match s.value? text with
  | some value => .ok value
  | none => .error ⟨s.keyword, text⟩

end Scalar
end TypedSheets

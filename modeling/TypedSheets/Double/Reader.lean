import TypedSheets.Double.Basic
import TypedSheets.Text.Integer

/-!
# Reading doubles

The decimal spelling of a double: a sign, digits with an optional point, digits on
at least one side of it, and an optional power of ten. The names of the infinities
and of the undefined number are read in any case. The result is the double nearest
to the written number.
-/

namespace TypedSheets
namespace Double

/-- The power of ten behind the digits: nothing, or `e` with an optional sign and one
or more digits. -/
def power? : List Char → Option Int
  | [] => some 0
  | c :: cs => if c = 'e' ∨ c = 'E' then Text.integer? cs else none

/-- Digits after a point, and what follows them; no digits where there is no point. -/
def fraction : List Char → List Char × List Char
  | '.' :: cs => (cs.takeWhile Char.isDigit, cs.dropWhile Char.isDigit)
  | cs => ([], cs)

/-- Reads an unsigned decimal. -/
def magnitude? (negative : Bool) (cs : List Char) : Option Double :=
  let whole := cs.takeWhile Char.isDigit
  let (parts, rest) := fraction (cs.dropWhile Char.isDigit)
  if whole.isEmpty && parts.isEmpty then none
  else (power? rest).map fun power =>
    ofDecimal negative (Text.decimalValue (whole ++ parts)) (power - parts.length)

/-- Reads an unsigned number, named or decimal. -/
def unsigned? (negative : Bool) (cs : List Char) : Option Double :=
  let name := String.ofList (cs.map Char.toLower)
  if name = "inf" ∨ name = "infinity" then some (.infinite negative)
  else if name = "nan" then some .nan
  else magnitude? negative cs

/-- Reads a double with an optional sign. -/
def ofChars? : List Char → Option Double
  | '+' :: cs => unsigned? false cs
  | '-' :: cs => unsigned? true cs
  | cs => unsigned? false cs

end Double
end TypedSheets

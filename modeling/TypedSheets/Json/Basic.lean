import TypedSheets.Double.Format
import TypedSheets.OrderedMap

/-!
# JSON trees and their text

A JSON document as a tree. The members of an object are a list of pairs, so their
order is part of the tree, and a writer may repeat a name. Whole numbers and
numbers in double precision are kept apart: the first are written with digits
only, the second always with a point or a power of ten.

## Main definitions

* `Json` — the trees.
* `Json.compact` — a tree on one line, without spaces.
* `Json.pretty` — a tree over several lines, two spaces for each level.
-/

namespace TypedSheets

/-- A JSON tree. -/
inductive Json where
  | null
  | bool (b : Bool)
  /-- A number written with digits only. -/
  | int (n : Int)
  /-- A number in double precision. -/
  | double (x : Double)
  | str (s : String)
  | arr (items : List Json)
  | obj (members : List (String × Json))
  deriving Repr, Inhabited

namespace Json

/-! ### Strings and numbers -/

/-- The lowercase hexadecimal digit for a number below sixteen. -/
def hexDigit (n : Nat) : Char := Nat.digitChar n

/-- A character as it stands in a string: quotes, backslashes and the control
characters below the space are escaped, all else is itself. -/
def escapeChar (c : Char) : List Char :=
  match c with
  | '"' => ['\\', '"']
  | '\\' => ['\\', '\\']
  | '\n' => ['\\', 'n']
  | '\r' => ['\\', 'r']
  | '\t' => ['\\', 't']
  | '\x08' => ['\\', 'b']
  | '\x0c' => ['\\', 'f']
  | c =>
    if c.toNat < 0x20 then ['\\', 'u', '0', '0', hexDigit (c.toNat / 16), hexDigit (c.toNat % 16)]
    else [c]

/-- A string between quotes. -/
def quote (s : String) : String := String.ofList ('"' :: s.toList.flatMap escapeChar ++ ['"'])

/-- The text of a double; a number that is not finite has no JSON text but `null`. -/
def doubleText (x : Double) : String := if x.isFinite then x.format .json else "null"

/-! ### Trees on one line -/

mutual

/-- A tree on one line, without spaces. -/
def compact : Json → String
  | null => "null"
  | bool b => if b then "true" else "false"
  | int n => toString n
  | double x => doubleText x
  | str s => quote s
  | arr items => "[" ++ ",".intercalate (compactList items) ++ "]"
  | obj members => "\x7b" ++ ",".intercalate (compactMembers members) ++ "\x7d"

/-- The texts of the items of an array. -/
def compactList : List Json → List String
  | [] => []
  | item :: items => item.compact :: compactList items

/-- The texts of the members of an object. -/
def compactMembers : List (String × Json) → List String
  | [] => []
  | (name, value) :: members => (quote name ++ ":" ++ value.compact) :: compactMembers members

end

/-! ### Trees over several lines -/

/-- The start of a line at a given level. -/
def indent (level : Nat) : String := String.ofList (List.replicate (2 * level) ' ')

/-- Parts between brackets, one line each at the level below, or nothing at all. -/
def bracketed (opening closing : String) (level : Nat) (parts : List String) : String :=
  match parts with
  | [] => opening ++ closing
  | parts =>
    let lead := "\n" ++ indent (level + 1)
    opening ++ lead ++ ("," ++ lead).intercalate parts ++ "\n" ++ indent level ++ closing

mutual

/-- A tree over several lines, starting at a given level. -/
def prettyAt (level : Nat) : Json → String
  | null => "null"
  | bool b => if b then "true" else "false"
  | int n => toString n
  | double x => doubleText x
  | str s => quote s
  | arr items => bracketed "[" "]" level (prettyList (level + 1) items)
  | obj members => bracketed "\x7b" "\x7d" level (prettyMembers (level + 1) members)

/-- The texts of the items of an array at a given level. -/
def prettyList (level : Nat) : List Json → List String
  | [] => []
  | item :: items => item.prettyAt level :: prettyList level items

/-- The texts of the members of an object at a given level. -/
def prettyMembers (level : Nat) : List (String × Json) → List String
  | [] => []
  | (name, value) :: members =>
    (quote name ++ ": " ++ value.prettyAt level) :: prettyMembers level members

end

/-- A tree over several lines, two spaces for each level. -/
def pretty (json : Json) : String := json.prettyAt 0

end Json
end TypedSheets

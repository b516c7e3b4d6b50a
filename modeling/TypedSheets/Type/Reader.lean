import TypedSheets.Type.Basic

/-!
# Reading type cells

The grammar of a type cell is

    type  := atom '?'?
    atom  := 'List' '<' type '>' | ident
    ident := [A-Za-z_][A-Za-z0-9_]*

with spaces, tabs and line ends allowed before every token, and any blanks at the
end. An identifier that is a scalar keyword is that scalar; any other one, a lone
`List` included, is a name.

## Main definitions

* `TypeToken`, `TypeToken.scan?` — the tokens of a text.
* `WrittenType.take?` — a type at the start of a list of tokens.
* `WrittenType.read?` — the type of a text.
-/

namespace TypedSheets

/-- A token of a type cell. -/
inductive TypeToken where
  | ident (name : String)
  | less
  | greater
  | question
  deriving DecidableEq, Repr

namespace TypeToken

/-- Whether a character can start an identifier. -/
def isIdentStart (c : Char) : Bool := c.isAlpha || c = '_'

/-- Whether a character can go on in an identifier. -/
def isIdentRest (c : Char) : Bool := c.isAlphanum || c = '_'

/-- Whether a character may stand between tokens. -/
def isSpace (c : Char) : Bool := c = ' ' || c = '\t' || c = '\r' || c = '\n'

/-- The token of an identifier read in reverse; no token when nothing was read. -/
def flush : List Char → List TypeToken
  | [] => []
  | letters => [ident (String.ofList letters.reverse)]

/-- The mark a character is. -/
def mark? : Char → Option TypeToken
  | '<' => some less
  | '>' => some greater
  | '?' => some question
  | _ => none

/-- The tokens of characters, behind an identifier of which `letters` were read so
far, in reverse. -/
def scanFrom (letters : List Char) : List Char → Option (List TypeToken)
  | [] => some (flush letters)
  | c :: cs =>
    if isIdentStart c || (!letters.isEmpty && isIdentRest c) then scanFrom (c :: letters) cs
    else if isSpace c then (scanFrom [] cs).map (flush letters ++ ·)
    else match mark? c with
      | some mark => (scanFrom [] cs).map (flush letters ++ mark :: ·)
      | none => none

/-- The tokens of a text, blanks at its end left out. -/
def scan? (text : String) : Option (List TypeToken) :=
  scanFrom [] (Text.dropBlanksEnd text.toList)

end TypeToken

namespace WrittenType

open TypeToken

/-- The type of an identifier. -/
def ofIdent (name : String) : WrittenType :=
  match Scalar.ofKeyword? name with
  | some s => scalar s
  | none => named name

/-- A type that a question mark may follow. -/
def takeQuestion (inner : WrittenType) : List TypeToken → WrittenType × List TypeToken
  | question :: rest => (nullable inner, rest)
  | rest => (inner, rest)

/-- A type at the start of a list of tokens, and the tokens after it. -/
def take? : List TypeToken → Option (WrittenType × List TypeToken)
  | ident name :: less :: rest =>
    if name = "List" then
      match take? rest with
      | some (element, greater :: rest) => some (takeQuestion (list element) rest)
      | _ => none
    else some (takeQuestion (ofIdent name) (less :: rest))
  | ident name :: rest => some (takeQuestion (ofIdent name) rest)
  | _ => none

/-- The type of a text. -/
def read? (text : String) : Option WrittenType :=
  match (TypeToken.scan? text).bind take? with
  | some (type, []) => some type
  | _ => none

end WrittenType
end TypedSheets

/-!
# Casings of identifiers

An identifier is a list of lowercase words under one of four casings. Sheets are
written in one casing and generated code uses others, so identifiers are taken
apart into words and put together again. Only ASCII letters change case.

Between the two snake casings, and between Pascal and camel, no words need to be
found: `Casing.convert` maps the letters, or the first letter, directly.

## Main definitions

* `Casing` — the four casings.
* `Casing.words` — the words of an identifier written in a casing.
* `Casing.join` — the identifier of a list of words.
* `Casing.convert` — an identifier moved from one casing to another.
-/

namespace TypedSheets

/-- How the words of an identifier are written together. -/
inductive Casing where
  /-- `ItemName` -/
  | pascal
  /-- `itemName` -/
  | camel
  /-- `ITEM_NAME` -/
  | upperSnake
  /-- `item_name` -/
  | lowerSnake
  deriving DecidableEq, Repr, Inhabited

namespace Casing

/-- The four casings. -/
def all : List Casing := [pascal, camel, upperSnake, lowerSnake]

/-- The name a configuration gives to a casing. -/
def name : Casing → String
  | pascal => "pascal"
  | camel => "camel"
  | upperSnake => "upper_snake"
  | lowerSnake => "lower_snake"

/-- The casing of a given name. -/
def ofName? (text : String) : Option Casing := all.find? fun casing => casing.name == text

/-! ### Letters -/

/-- Characters with their first one changed. -/
def mapFirst (f : Char → Char) : List Char → List Char
  | [] => []
  | c :: cs => f c :: cs

/-- Text with its letters in lower case. -/
def lower (text : String) : String := String.ofList (text.toList.map Char.toLower)

/-- Text with its letters in upper case. -/
def upper (text : String) : String := String.ofList (text.toList.map Char.toUpper)

/-- Text with its first letter in upper case. -/
def capitalized (text : String) : String := String.ofList (mapFirst Char.toUpper text.toList)

/-- Text with its first letter in lower case. -/
def uncapitalized (text : String) : String := String.ofList (mapFirst Char.toLower text.toList)

/-! ### Words -/

/-- Characters with each capital turned into an underscore and a small letter. -/
def markCapitals : List Char → List Char
  | [] => []
  | c :: cs => if c.isUpper then '_' :: c.toLower :: markCapitals cs else c :: markCapitals cs

/-- The nonempty pieces of characters between underscores. -/
def pieces (cs : List Char) : List String :=
  ((cs.splitOn '_').filter fun piece => !piece.isEmpty).map String.ofList

/-- The words of an identifier. A capital starts a word under Pascal and camel, an
underscore ends one under every casing. -/
def words (casing : Casing) (text : String) : List String :=
  match casing with
  | lowerSnake => pieces text.toList
  | upperSnake => pieces (text.toList.map Char.toLower)
  | pascal | camel => pieces (markCapitals text.toList)

/-- The words run together, each with a capital. -/
def joinPascal (words : List String) : String := String.join (words.map capitalized)

/-- The identifier of a list of words. -/
def join (casing : Casing) (words : List String) : String :=
  match casing with
  | lowerSnake => "_".intercalate words
  | upperSnake => upper ("_".intercalate words)
  | pascal => joinPascal words
  | camel => uncapitalized (joinPascal words)

/-- An identifier moved from one casing to another. -/
def convert (source target : Casing) (text : String) : String :=
  if source = target then text
  else match source, target with
  | upperSnake, lowerSnake => lower text
  | lowerSnake, upperSnake => upper text
  | camel, pascal => capitalized text
  | pascal, camel => uncapitalized text
  | _, _ => target.join (source.words text)

end Casing
end TypedSheets

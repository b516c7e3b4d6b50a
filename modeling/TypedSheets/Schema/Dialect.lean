import TypedSheets.Casing
import TypedSheets.Schema.Basic

/-!
# Dialects of sheets

How the text of a sheet is to be read: the casing of its names, the mark of rows
to skip, whether a marker row opens the data, and the type of enumerations that
name none. Header cells start with a bracket; their words are cut at brackets and
colons, and the first one is the tag.

## Main definitions

* `Dialect` — the settings; the type of enumerations is always an integer type.
* `Dialect.toSheet`, `Dialect.ofSheet` — names to and from Pascal casing.
* `Dialect.ignores` — whether a row is skipped, by its first cell.
* `isHeaderCell`, `headerWords`, `Dialect.tag?` — header cells and their tags.
-/

namespace TypedSheets

/-- How the text of a sheet is to be read. -/
structure Dialect where
  /-- The casing of names and headers. -/
  casing : Casing := .pascal
  /-- What the first cell of a skipped row starts with. -/
  ignoreMarker : String := ";"
  /-- Whether a marker row stands above the data rows. -/
  usesDataMarker : Bool := true
  /-- The type of enumerations that name none. -/
  enumBacking : Scalar := .int
  isInteger_enumBacking : enumBacking.isInteger = true := by decide
  deriving DecidableEq, Repr

namespace Dialect

instance : Inhabited Dialect := ⟨{}⟩

/-- A dialect with another type for enumerations; only integer types are taken. -/
def withEnumBacking (dialect : Dialect) (backing : Scalar) : Dialect :=
  if h : backing.isInteger = true then
    { dialect with enumBacking := backing, isInteger_enumBacking := h }
  else dialect

/-- A name in Pascal casing as the sheet writes it. -/
def toSheet (dialect : Dialect) (name : String) : String :=
  Casing.pascal.convert dialect.casing name

/-- A name of the sheet in Pascal casing. -/
def ofSheet (dialect : Dialect) (name : String) : String :=
  dialect.casing.convert .pascal name

/-- Whether a row with the given first cell is skipped: the cell is blank or starts
with the marker. An empty marker marks nothing. -/
def ignores (dialect : Dialect) : Option String → Bool
  | none => true
  | some text =>
    !dialect.ignoreMarker.isEmpty && Text.startsTrimmed dialect.ignoreMarker.toList text

end Dialect

/-! ### Headers -/

/-- Whether a cell is a header: its text starts with a bracket. -/
def isHeaderCell : Option String → Bool
  | none => false
  | some text => Text.startsTrimmed ['['] text

/-- Whether a character parts the words of a header. -/
def isHeaderMark (c : Char) : Bool := c = '[' || c = ']' || c = ':'

/-- The nonblank pieces of a text between characters with a property, trimmed. -/
def trimmedPieces (p : Char → Bool) (text : String) : List String :=
  (text.toList.splitOnP p).filterMap fun piece => Text.trimmed? (String.ofList piece)

/-- The words of a header cell. -/
def headerWords (text : String) : List String := trimmedPieces isHeaderMark text

/-- The tag of a cell in Pascal casing, if it is a header that has one. -/
def Dialect.tag? (dialect : Dialect) (cell : Option String) : Option String :=
  if isHeaderCell cell then
    (cell.bind fun text => (headerWords text).head?).map dialect.ofSheet
  else none

/-- The tag of the row above the paths of the data columns. -/
def nameMarker : String := "Name"

/-- The tag of the row above the data rows. -/
def dataMarker : String := "Data"

end TypedSheets

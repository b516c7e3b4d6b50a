import TypedSheets.Text.Blank
import TypedSheets.Text.Integer

/-!
# Cell references

A cell of a sheet is named by its column and row, counted from zero. Its written
form is a column label, letters read as a number in base twenty-six without a
zero digit, followed by the row counted from one: `A1`, `C12`, `AA3`. Reading is
more liberal than writing: letters of either case, and a `$` before each part.

## Main definitions

* `Cell` — a cell by row and column.
* `columnName`, `columnNumber` — labels from columns and numbers from labels.
* `Cell.toA1`, `Cell.ofA1` — the written form, and its reader.
-/

namespace TypedSheets

/-- A cell of a sheet, by its row and column counted from zero. -/
structure Cell where
  row : Nat
  col : Nat
  deriving DecidableEq, Repr, Inhabited

/-- Why a text is no cell reference. -/
inductive A1Error where
  /-- The text is blank. -/
  | empty
  /-- No letters where the column should be. -/
  | missingColumn
  /-- No digits where the row should be. -/
  | missingRow
  /-- A row of zero, or one past sixty-four bits. -/
  | invalidRow
  /-- A column past sixty-four bits. -/
  | invalidColumn
  /-- Text after the row. -/
  | trailingCharacters
  deriving DecidableEq, Repr

/-- The wording of a reading error. -/
def A1Error.message : A1Error → String
  | .empty => "reference is empty"
  | .missingColumn => "reference has no column letters"
  | .missingRow => "reference has no row number"
  | .invalidRow => "row number must be 1 or greater"
  | .invalidColumn => "column label is too large"
  | .trailingCharacters => "unexpected characters after the row number"

/-! ### Column labels -/

/-- The letter for `d` counted from zero: `0 ↦ A`, …, `25 ↦ Z`. -/
def letterOf (d : Nat) : Char := Char.ofNat ('A'.toNat + d)

/-- The letters of `n` in base twenty-six with digits one to twenty-six, put
before `tail`. -/
def labelLetters (n : Nat) (tail : List Char) : List Char :=
  if h : n = 0 then tail
  else labelLetters ((n - 1) / 26) (letterOf ((n - 1) % 26) :: tail)
  termination_by n
  decreasing_by omega

/-- The label of a column counted from zero. -/
def columnName (col : Nat) : String := String.ofList (labelLetters (col + 1) [])

/-- What a letter of either case counts for in a label: one to twenty-six. -/
def letterValue (c : Char) : Nat := c.toUpper.toNat - 'A'.toNat + 1

/-- The number, counted from one, that a run of letters stands for. -/
def columnNumber (letters : List Char) : Nat :=
  letters.foldl (fun n c => n * 26 + letterValue c) 0

/-! ### Written form -/

namespace Cell

/-- The written form of a cell reference. -/
def toA1 (cell : Cell) : String := columnName cell.col ++ toString (cell.row + 1)

/-- Characters without the `$` that may lead them. -/
def dropMarker : List Char → List Char
  | '$' :: cs => cs
  | cs => cs

/-- Reads a cell reference from trimmed characters. A part that is missing is
reported before a later part is looked at. -/
def ofA1Chars (cs : List Char) : Except A1Error Cell :=
  if cs.isEmpty then .error .empty
  else
    let afterMarker := dropMarker cs
    let letters := afterMarker.takeWhile Char.isAlpha
    let afterColumn := dropMarker (afterMarker.dropWhile Char.isAlpha)
    let digits := afterColumn.takeWhile Char.isDigit
    let column := columnNumber letters
    let row := Text.decimalValue digits
    if letters.isEmpty then .error .missingColumn
    else if Text.maxIndex < column then .error .invalidColumn
    else if digits.isEmpty then .error .missingRow
    else if !(afterColumn.dropWhile Char.isDigit).isEmpty then .error .trailingCharacters
    else if row = 0 ∨ Text.maxIndex < row then .error .invalidRow
    else .ok ⟨row - 1, column - 1⟩

/-- Reads a cell reference, ignoring blanks around it. -/
def ofA1 (text : String) : Except A1Error Cell := ofA1Chars (Text.trimChars text.toList)

end Cell
end TypedSheets

import TypedSheets.Double.Format
import TypedSheets.Grid
import TypedSheets.OrderedMap

/-!
# Workbooks

A workbook is a list of worksheets, and a worksheet a list of typed cells with their
places. As a grid of texts a worksheet starts at its first row and column, however
far in its cells begin, and ends at the last row and column that hold a cell.

## Main definitions

* `WorksheetCell`, `Worksheet` — typed cells and their places.
* `WorksheetCell.text?` — a cell as text.
* `Worksheet.grid?` — a worksheet as a grid.
-/

namespace TypedSheets

/-- A typed cell. -/
inductive WorksheetCell where
  | number (x : Double)
  /-- A point in time, by its number. -/
  | date (x : Double)
  | bool (b : Bool)
  | text (s : String)
  /-- The code of a failed computation. -/
  | error (code : String)
  deriving DecidableEq, Repr

/-- The codes of failed computations, with their texts. -/
def errorTexts : List (String × String) :=
  [("#DIV/0!", "#Div0"), ("#N/A", "#NA"), ("#NAME?", "#Name"), ("#NULL!", "#Null"),
   ("#NUM!", "#Num"), ("#REF!", "#Ref"), ("#VALUE!", "#Value")]

/-- The least whole number that is not written as one. -/
def wholeLimit : Nat := 1000000000000000

/-- A number as text: a whole number without sign of zero, as far as it is exact. -/
def numberText (x : Double) : String :=
  match x.toInt? with
  | some n => if n.natAbs < wholeLimit then toString n else x.format .plain
  | none => x.format .plain

/-- A cell as text; an unknown error code has none. -/
def WorksheetCell.text? : WorksheetCell → Option String
  | number x => some (numberText x)
  | date x => some (x.format .plain)
  | bool b => some (if b then "true" else "false")
  | text s => some s
  | error code => OrderedMap.get? errorTexts code

/-- A worksheet: its name, and its cells with their places. -/
structure Worksheet where
  name : String
  cells : List (Cell × WorksheetCell)
  deriving DecidableEq, Repr

namespace Worksheet

/-- The number of rows up to the last cell. -/
def height (sheet : Worksheet) : Nat :=
  sheet.cells.foldl (fun n (cell, _) => max n (cell.row + 1)) 0

/-- The number of columns up to the last cell. -/
def width (sheet : Worksheet) : Nat :=
  sheet.cells.foldl (fun n (cell, _) => max n (cell.col + 1)) 0

/-- The text of a cell of a list of them; of two at one place the last one counts. -/
def textAt (texts : List (Cell × String)) (cell : Cell) : String :=
  ((texts.reverse.find? fun entry => entry.1 = cell).map Prod.snd).getD ""

/-- A worksheet as a grid, unless one of its cells has no text. -/
def grid? (sheet : Worksheet) : Option Grid := do
  let texts ← sheet.cells.mapM fun (cell, value) => value.text?.map fun text => (cell, text)
  let rows := (List.range sheet.height).map fun row =>
    (List.range sheet.width).map fun col => textAt texts ⟨row, col⟩
  return Grid.ofRows rows

end Worksheet
end TypedSheets

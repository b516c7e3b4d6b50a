import TypedSheets.Cell

/-!
# Grids and views

A grid holds the cell texts of one sheet. Blank cells are not told apart from
missing ones, and a row shorter than the widest one is blank at its end. Work on
a part of a sheet goes through a view, a rectangle of the grid that is addressed
from its own corner and still knows where it lies.

## Main definitions

* `Grid.ofRows` — the grid of ragged rows of texts.
* `View` — a rectangle of a grid; `Grid.view` is the whole of it.
* `View.text?`, `View.place` — a cell of a view, and its place in the sheet.
* `View.window` — a rectangle of a view, refused when it does not fit.
* `View.rowWhere?` — the first row from a given one whose cell has a property.
-/

namespace TypedSheets

/-- The cells of a sheet, row by row. A row may stop early: what it leaves out is
blank. -/
structure Grid where
  rows : Array (Array (Option String))
  deriving DecidableEq, Repr, Inhabited

namespace Grid

/-- A cell text, unless it is blank. -/
def cellOf (text : String) : Option String := if Text.isBlank text then none else some text

/-- The grid of ragged rows of texts. -/
def ofRows (rows : List (List String)) : Grid :=
  ⟨(rows.map fun row => (row.map cellOf).toArray).toArray⟩

/-- The number of rows. -/
def height (grid : Grid) : Nat := grid.rows.size

/-- The number of columns: the length of the longest row. -/
def width (grid : Grid) : Nat := (grid.rows.map Array.size).foldl max 0

/-- The text of a cell; `none` when it is blank or outside the grid. -/
def text? (grid : Grid) (row col : Nat) : Option String :=
  (grid.rows[row]?).bind fun cells => (cells[col]?).join

end Grid

/-- A rectangle of a grid: its upper left corner and its extent. -/
structure View where
  grid : Grid
  top : Nat
  left : Nat
  height : Nat
  width : Nat
  deriving DecidableEq, Repr, Inhabited

/-- The view of a whole grid. -/
def Grid.view (grid : Grid) : View := ⟨grid, 0, 0, grid.height, grid.width⟩

/-- A rectangle asked of a view that does not fit inside it. -/
structure RangeError where
  /-- First row and column asked for. -/
  first : Cell
  /-- Last row and column asked for. -/
  last : Cell
  /-- Extent of the view it was asked of. -/
  height : Nat
  width : Nat
  deriving DecidableEq, Repr

/-- The wording of a range error. -/
def RangeError.message (e : RangeError) : String :=
  s!"range rows {e.first.row}..={e.last.row}, columns {e.first.col}..={e.last.col} " ++
    s!"is outside a view of {e.height} rows and {e.width} columns"

namespace View

/-- The text of a cell of the view; `none` when it is blank or outside the view. -/
def text? (view : View) (row col : Nat) : Option String :=
  if row < view.height ∧ col < view.width then view.grid.text? (view.top + row) (view.left + col)
  else none

/-- Where a cell of the view lies in the sheet. -/
def place (view : View) (row col : Nat) : Cell := ⟨view.top + row, view.left + col⟩

/-- The sheet row of a row of the view. -/
def sheetRow (view : View) (row : Nat) : Nat := view.top + row

/-- The cells of one row of the view, blanks included. -/
def rowTexts (view : View) (row : Nat) : List (Option String) :=
  (List.range view.width).map (view.text? row)

/-- The rows `r0` to `r1` and columns `c0` to `c1` of a view, ends included. -/
def window (view : View) (r0 c0 r1 c1 : Nat) : Except RangeError View :=
  if r1 < r0 ∨ c1 < c0 ∨ view.height ≤ r1 ∨ view.width ≤ c1 then
    .error ⟨⟨r0, c0⟩, ⟨r1, c1⟩, view.height, view.width⟩
  else
    .ok ⟨view.grid, view.top + r0, view.left + c0, r1 - r0 + 1, c1 - c0 + 1⟩

/-- The rows of a view from `start` on. -/
def rowsFrom (view : View) (start : Nat) : List Nat := List.range' start (view.height - start)

/-- The first row from `start` on whose cell in column `col` has the property `p`. -/
def rowWhere? (view : View) (start col : Nat) (p : Option String → Bool) : Option Nat :=
  (view.rowsFrom start).find? fun row => p (view.text? row col)

end View
end TypedSheets

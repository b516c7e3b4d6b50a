import TypedSheets.Fault
import TypedSheets.Schema.Dialect

/-!
# The data section of a sheet

Below the design of a sheet, a row tagged `Name` stands above the row of paths. The
data rows follow it; with data markers a row tagged `Data` stands between the two.
Skipped rows are no data.

## Main definitions

* `DataLayout` — the row of paths and the data rows.
* `DataLayout.find` — the data section of a sheet.
-/

namespace TypedSheets

/-- The rows of a data section. -/
structure DataLayout where
  pathRow : Nat
  rows : List Nat
  deriving DecidableEq, Repr

namespace DataLayout

/-- The first row from `start` on with a given tag. -/
def markerRow? (dialect : Dialect) (view : View) (start : Nat) (marker : String) : Option Nat :=
  view.rowWhere? start 0 fun cell => dialect.tag? cell = some marker

/-- The rows from `start` to before `stop` that are not skipped. -/
def filledRows (dialect : Dialect) (view : View) (start stop : Nat) : List Nat :=
  (List.range' start (stop - start)).filter fun row => !dialect.ignores (view.text? row 0)

/-- The first row after the marker of the data rows, given the marker if there is one.
Without data markers, there has to be none. -/
def firstDataRow (dialect : Dialect) (view : View) (nameRow : Nat) (marker : Option Nat) :
    Except Fault Nat :=
  let pathRow := nameRow + 1
  if dialect.usesDataMarker then
    match marker with
    | none => .error (.missingDataRow (view.place nameRow 0))
    | some row =>
      match filledRows dialect view (pathRow + 1) row with
      | stray :: _ => .error (.strayRow (view.place stray 0) (view.place row 0))
      | [] => .ok (row + 1)
  else
    match marker with
    | some row => .error (.unexpectedDataRow (view.place row 0))
    | none => .ok (pathRow + 1)

/-- The data section of a sheet, below the header cell of its design. -/
def find (dialect : Dialect) (view : View) (design : Cell) : Except Fault DataLayout :=
  match markerRow? dialect view design.row nameMarker with
  | none => .error (.missingNameRow (dialect.toSheet nameMarker) design)
  | some nameRow =>
    let pathRow := nameRow + 1
    if view.height ≤ pathRow then .error (.missingPathRow (view.place nameRow 0))
    else do
      let start ← firstDataRow dialect view nameRow
        (markerRow? dialect view (pathRow + 1) dataMarker)
      return ⟨pathRow, filledRows dialect view start view.height⟩

end DataLayout
end TypedSheets

import TypedSheets.Fault
import TypedSheets.Schema.Dialect

/-!
# Columns of a block

The elements of a block are the rows of a small table. The row below the block
header names its columns, in any order; the rows from the second on are its
elements, of which skipped rows are left out. Each kind of block knows its columns
and which of them it needs.

## Main definitions

* `Column` — a column a kind of block knows.
* `Table.ofView` — the columns of a block found by their headers.
* `Table.elementRows` — the rows that hold elements.
* `Table.text?`, `Table.raw?`, `Table.flag` — the cells of an element.
-/

namespace TypedSheets

/-- The row of column headers, counted from the block header. -/
def namesRow : Nat := 1

/-- The first row of elements, counted from the block header. -/
def firstRow : Nat := 2

/-- A column that a kind of block knows. -/
structure Column where
  /-- Its header in Pascal casing. -/
  name : String
  /-- Whether the block needs the column. -/
  essential : Bool
  /-- Whether its cells may be blank. -/
  allowsBlank : Bool
  deriving DecidableEq, Repr

namespace Column

/-- A column that is needed, in every element. -/
def required (name : String) : Column := ⟨name, true, false⟩

/-- A column that is needed, but whose cells may be blank. -/
def requiredHeader (name : String) : Column := ⟨name, true, true⟩

/-- A column that may be left out. -/
def extra (name : String) : Column := ⟨name, false, true⟩

end Column

/-- A block with its columns found. -/
structure Table where
  /-- The block, its header in the first row. -/
  view : View
  /-- The columns its kind knows. -/
  columns : List Column
  /-- The place of each column that was found, by name. -/
  places : List (String × Nat)
  deriving Repr

namespace Table

/-- The columns a header row names, one cell after another. Each known column comes
with its header in the casing of the sheet. -/
def findColumns (view : View) (known : List (String × Column)) :
    List (Option String × Nat) → List (String × Nat) → Except Fault (List (String × Nat))
  | [], places => .ok places
  | (none, _) :: cells, places => findColumns view known cells places
  | (some cell, col) :: cells, places =>
    let text := Text.trim cell
    match known.find? fun entry => entry.1 == text with
    | none => .error (.unknownColumn text (known.map Prod.fst) (view.place namesRow col))
    | some (_, column) =>
      match OrderedMap.get? places column.name with
      | some first =>
        .error (.repeatedColumn text (view.place namesRow col) (view.place namesRow first))
      | none => findColumns view known cells (OrderedMap.insert places column.name col)

/-- A block with its columns found by their headers. -/
def ofView (dialect : Dialect) (view : View) (columns : List Column) : Except Fault Table := do
  let known := columns.map fun column => (dialect.toSheet column.name, column)
  let places ← findColumns view known (view.rowTexts namesRow).zipIdx []
  match known.find? fun entry => entry.2.essential && !OrderedMap.contains places entry.2.name with
  | some (name, _) => throw (.missingColumn name (view.place 0 0))
  | none => return ⟨view, columns, places⟩

/-- The rows that hold elements. -/
def elementRows (dialect : Dialect) (table : Table) : List Nat :=
  (table.view.rowsFrom firstRow).filter fun row =>
    !dialect.ignores (table.view.text? row 0)

/-- The text of an element in a column, as written. -/
def raw? (table : Table) (row : Nat) (column : String) : Option String :=
  (OrderedMap.get? table.places column).bind fun col => table.view.text? row col

/-- The text of an element in a column, trimmed. -/
def text? (table : Table) (row : Nat) (column : String) : Option String :=
  (table.raw? row column).map Text.trim

/-- The cell of an element in a column, or its first cell without the column. -/
def place (table : Table) (row : Nat) (column : String) : Cell :=
  table.view.place row ((OrderedMap.get? table.places column).getD 0)

/-- The first cell of an element. -/
def origin (table : Table) (row : Nat) : Cell := table.view.place row 0

/-- Checks that an element has text in every column that needs it. -/
def checkRow (table : Table) (row : Nat) : Except Fault Unit :=
  let blank := table.columns.findSome? fun column =>
    if column.essential && !column.allowsBlank then
      (OrderedMap.get? table.places column.name).bind fun col =>
        if (table.view.text? row col).isNone then some (column.name, col) else none
    else none
  match blank with
  | some (name, col) => .error (.blankElement name (table.view.place row col))
  | none => .ok ()

/-- The text of an element in a column that needs it. -/
def required (table : Table) (row : Nat) (column : String) : Except Fault String :=
  match table.text? row column with
  | some text => .ok text
  | none => .error (.blankElement column (table.place row column))

/-- A flag of an element; a blank cell is `false`. -/
def flag (table : Table) (row : Nat) (column : String) : Except Fault Bool :=
  match table.text? row column with
  | none => .ok false
  | some text =>
    if Scalar.isWord "true" text.toList then .ok true
    else if Scalar.isWord "false" text.toList then .ok false
    else .error (.badFlag text column (table.place row column))

end Table
end TypedSheets

import TypedSheets.Schema.Elements

/-!
# Reading a schema

The blocks of a sheet are found in its first column: a header opens a block, which
fills the rows up to the next header. A header with the tag `Name` or `Data` ends
the schema, since the rows from there on hold data.

## Main definitions

* `headerRows` — the rows with a header, up to the first marker of data.
* `blockEnd` — the row after a block.
* `Schema.read` — the schema of a sheet.
-/

namespace TypedSheets

/-- Whether a cell marks the data part of a sheet. -/
def isDataHeader (dialect : Dialect) (cell : Option String) : Bool :=
  match dialect.tag? cell with
  | some tag => tag == nameMarker || tag == dataMarker
  | none => false

/-- The rows with a header cell that open a block. -/
def headerRows (dialect : Dialect) (view : View) : List Nat :=
  ((List.range view.height).filter fun row => isHeaderCell (view.text? row 0)).takeWhile fun row =>
    !isDataHeader dialect (view.text? row 0)

/-- The row after the block that starts in a given row: that of the next header, or
the end of the sheet. -/
def blockEnd (view : View) (row : Nat) : Nat :=
  (view.rowWhere? (row + 1) 0 isHeaderCell).getD view.height

/-- The kind of block a header row opens. -/
def headerKind (dialect : Dialect) (view : View) (row : Nat) : Except Fault BlockKind :=
  let tag := (dialect.tag? (view.text? row 0)).getD ""
  match BlockKind.ofTag? tag with
  | some kind => .ok kind
  | none => .error (.unknownBlock tag (view.place row 0))

/-- The block that starts in a given row. -/
def Block.readAt (dialect : Dialect) (view : View) (kind : BlockKind) (row : Nat) :
    Except Fault Block :=
  match view.window row 0 (blockEnd view row - 1) (view.width - 1) with
  | .ok rectangle => Block.read dialect kind rectangle
  | .error e => .error (.badRange e (view.place row 0))

/-- The blocks of a list of header rows. `seen` holds the kinds that occur once with
the cells where they did. -/
def Block.readAll (dialect : Dialect) (view : View) :
    List Nat → List (BlockKind × Cell) → Except Fault (List Block)
  | [], _ => .ok []
  | row :: rows, seen => do
    let cell := view.place row 0
    let kind ← headerKind dialect view row
    match seen.find? fun entry => entry.1 = kind with
    | some (_, first) => throw (.repeatedBlock kind cell first)
    | none =>
      let block ← Block.readAt dialect view kind row
      let blocks ← Block.readAll dialect view rows
        (if kind.repeats then seen else (kind, cell) :: seen)
      return block :: blocks

/-- The schema of a sheet. -/
def Schema.read (dialect : Dialect) (sheet : String) (view : View) : Except Fault Schema := do
  return ⟨sheet, ← Block.readAll dialect view (headerRows dialect view) []⟩

end TypedSheets

import TypedSheets.RunError

/-!
# Sources of sheets

Where sheets come from: the names of the sheets in some order, and the grid of each.
The plainest source is a map that holds the sheets, in the order in which their names
came first.

## Main definitions

* `Source` — names and grids.
* `Memory`, `Memory.source` — sheets held in a map.
-/

namespace TypedSheets

/-- Where sheets come from. -/
structure Source where
  /-- The names of the sheets. -/
  names : List String
  /-- The grid of a sheet. -/
  grid : String → Except RunError Grid

/-- Sheets held in a map. -/
structure Memory where
  sheets : List (String × Grid) := []
  deriving DecidableEq, Repr, Inhabited

namespace Memory

/-- The map with a sheet put in. A sheet of the same name is replaced. -/
def insert (memory : Memory) (name : String) (grid : Grid) : Memory :=
  ⟨OrderedMap.insert memory.sheets name grid⟩

/-- The map of a list of sheets, put in one after another. -/
def ofList (sheets : List (String × Grid)) : Memory := ⟨OrderedMap.ofList sheets⟩

/-- The grid of a name, if there is one. -/
def get? (memory : Memory) (name : String) : Option Grid := OrderedMap.get? memory.sheets name

/-- The grid of a name. -/
def grid (memory : Memory) (name : String) : Except RunError Grid :=
  match memory.get? name with
  | some grid => .ok grid
  | none => .error (.unknownSheet name)

/-- The source of a map. -/
def source (memory : Memory) : Source := ⟨memory.sheets.map Prod.fst, memory.grid⟩

end Memory
end TypedSheets

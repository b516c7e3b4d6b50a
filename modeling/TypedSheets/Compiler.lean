import TypedSheets.CSharp.Emission
import TypedSheets.Document
import TypedSheets.Schema.Reader
import TypedSheets.Source.Memory

/-!
# Compiling sheets

A sheet is read in two steps: first its schema, then, among the schemas of all
sheets, its types, data and code. A whole source is compiled either up to its first
error, or with all errors collected: those of loading, then those of reading, then
those of compiling.

## Main definitions

* `Settings.readSchema` — the schema of a sheet.
* `SheetOutput`, `Settings.compileSheet` — a compiled sheet.
* `Settings.compileStrict` — the sheets of a source, up to the first error.
* `Settings.compileLenient` — the sheets of a source, and all errors.
-/

namespace TypedSheets

/-- A compiled sheet. -/
structure SheetOutput where
  /-- The name of the sheet. -/
  name : String
  /-- The name of its entity in generated code. -/
  className : String
  code : CSharp.CodeFile
  /-- The text of its data document, if it has data. -/
  data : Option String
  warnings : List Diagnostic
  deriving DecidableEq, Repr

/-- The successes of a list of results. -/
def successes {ε α : Type} (results : List (Except ε α)) : List α :=
  results.filterMap Except.toOption

/-- The failures of a list of results. -/
def failures {ε α : Type} (results : List (Except ε α)) : List ε :=
  results.filterMap fun
    | .ok _ => none
    | .error e => some e

namespace Settings

/-- The dialect of the sheets. -/
def dialect (settings : Settings) : Except RunError Dialect :=
  match settings.sheet.dialect with
  | .ok dialect => .ok dialect
  | .error e => .error (.config (.settings e))

/-- A result with its fault charged to a sheet. -/
def charge {α : Type} (sheet : String) : Except Fault α → Except RunError α
  | .ok a => .ok a
  | .error fault => .error (.ofFault sheet fault)

/-- The schema of a sheet. -/
def readSchema (settings : Settings) (name : String) (grid : Grid) : Except RunError Schema := do
  let dialect ← settings.dialect
  charge name (Schema.read dialect name grid.view)

/-- A sheet compiled among the schemas of all sheets. -/
def compileSheet (settings : Settings) (schema : Schema) (grid : Grid) (schemas : List Schema) :
    Except RunError SheetOutput := do
  let dialect ← settings.dialect
  let catalog ← charge schema.sheet (Catalog.ofSchemas schema schemas settings.names)
  let data ← charge schema.sheet (SheetValues.read dialect schema catalog grid.view)
  return {
    name := schema.sheet
    className := CSharp.className catalog.naming schema.sheet
    code := CSharp.sheetFile schema catalog settings.platforms
    data := (data.document? catalog).map Json.pretty
    warnings := CSharp.warnings schema }

/-- The schema and grid of a sheet of a source. -/
def load (settings : Settings) (source : Source) (name : String) :
    Except RunError (Schema × Grid) := do
  let grid ← source.grid name
  let schema ← settings.readSchema name grid
  return (schema, grid)

/-- Sheets compiled among each other. -/
def compileEach (settings : Settings) (sheets : List (Schema × Grid)) :
    List (Except RunError SheetOutput) :=
  sheets.map fun (schema, grid) => settings.compileSheet schema grid (sheets.map Prod.fst)

/-- The sheets of a source, or the first error. -/
def compileStrict (settings : Settings) (source : Source) :
    Except RunError (List SheetOutput) := do
  let sheets ← source.names.mapM (settings.load source)
  (settings.compileEach sheets).mapM id

/-- The sheets of a source that compile, and the errors of the others: of loading, then
of reading, then of compiling. -/
def compileLenient (settings : Settings) (source : Source) : List SheetOutput × List RunError :=
  let loaded := source.names.map fun name => (source.grid name).map fun grid => (name, grid)
  let parsed := (successes loaded).map fun (name, grid) =>
    (settings.readSchema name grid).map fun schema => (schema, grid)
  let compiled := settings.compileEach (successes parsed)
  (successes compiled, failures loaded ++ failures parsed ++ failures compiled)

end Settings
end TypedSheets

import TypedSheets.RunError
import TypedSheets.Text.Lines

/-!
# Reports

An error as it is shown to a user: a headline, a code, and labels that underline
parts of a text. Diagnostics of sheets have no text of their own to underline, so
each labelled cell is written on a line of its own as `Sheet!A1`, and its label is
the span of that reference, counted in bytes.

## Main definitions

* `Diagnostic.references`, `Diagnostic.sourceText` — the references and their text.
* `spansFrom` — the spans of references on lines of their own.
* `Diagnostic.report`, `RunError.reports` — reports.
-/

namespace TypedSheets

/-- A labelled part of a text, in bytes. -/
structure Span where
  offset : Nat
  length : Nat
  message : String
  isPrimary : Bool
  deriving DecidableEq, Repr

/-- An error as it is shown. -/
structure Report where
  display : String
  severity : Option Severity
  code : Option String
  help : Option String
  /-- The text the labels are about, if any. -/
  sourceText : Option String
  labels : Option (List Span)
  deriving DecidableEq, Repr

/-- The reference to a cell of a sheet. -/
def cellReference (sheet : String) (cell : Cell) : String := sheet ++ "!" ++ cell.toA1

/-- The places of references that stand on lines of their own, from a given offset on. -/
def spansFrom : Nat → List String → List (Nat × Nat)
  | _, [] => []
  | offset, reference :: rest =>
    (offset, reference.utf8ByteSize) :: spansFrom (offset + reference.utf8ByteSize + 1) rest

namespace Diagnostic

/-- The references of the labels of a diagnostic, in their order. -/
def references (diagnostic : Diagnostic) (sheet : String) : List String :=
  diagnostic.labels.map fun label => cellReference sheet label.cell

/-- The references of a diagnostic, each on a line of its own. -/
def sourceText (diagnostic : Diagnostic) (sheet : String) : String :=
  String.join ((diagnostic.references sheet).map (· ++ "\n"))

/-- The labels of a diagnostic with the spans of their references. -/
def spans (diagnostic : Diagnostic) (sheet : String) : List Span :=
  (diagnostic.labels.zip (spansFrom 0 (diagnostic.references sheet))).map
    fun (label, offset, length) => ⟨offset, length, label.message, label.isPrimary⟩

/-- The headline of a diagnostic: its first reference, up to a line end, and its message. -/
def headline (diagnostic : Diagnostic) (sheet : String) : String :=
  match (Text.lines (diagnostic.sourceText sheet)).head? with
  | some location => location ++ ": " ++ diagnostic.message
  | none => diagnostic.message

/-- The report of a diagnostic of a sheet. -/
def report (diagnostic : Diagnostic) (sheet : String) : Report where
  display := diagnostic.headline sheet
  severity := some diagnostic.severity
  code := diagnostic.code.map FaultCode.name
  help := diagnostic.help
  sourceText := if diagnostic.labels.isEmpty then none else some (diagnostic.sourceText sheet)
  labels := if diagnostic.labels.isEmpty then none else some (diagnostic.spans sheet)

end Diagnostic

namespace RunError

/-- The code of an error that is no fault of a sheet. -/
def reportCode? : RunError → Option String
  | file _ => some "sheetdata::io"
  | faulty .. => none
  | source _ => some "sheetdata::source"
  | unknownSheet _ => some "sheetdata::unknown_sheet"
  | repeatedSheet .. => some "sheetdata::duplicate_sheet"
  | config _ => some "sheetdata::config"

/-- What may be done about an error. -/
def help? : RunError → Option String
  | repeatedSheet .. => some "sheet names must be unique across every file of the input directory"
  | _ => none

/-- The reports of an error: one for each diagnostic, or a single one. -/
def reports : RunError → List Report
  | faulty sheet diagnostics => diagnostics.map fun diagnostic => diagnostic.report sheet
  | error => [⟨error.message, none, error.reportCode?, error.help?, none, none⟩]

end RunError
end TypedSheets

import TypedSheets.Cell

/-!
# Diagnostics

A message about a sheet, with the cells it is about. Errors stop the compilation
of their sheet, warnings do not. The first label of an error marks the cell at
fault, the others cells that explain it.

## Main definitions

* `FaultCode` — the numbered kinds of errors, with a description each.
* `Label`, `Diagnostic` — messages and the cells they point at.
* `Diagnostic.display` — a diagnostic on one line.
-/

namespace TypedSheets

/-- The numbered kinds of errors: `1xx` about the layout of a sheet, `2xx` about its
declarations, `3xx` about its data. -/
inductive FaultCode where
  | e100
  | e101
  | e102
  | e103
  | e104
  | e105
  | e106
  | e107
  | e108
  | e200
  | e201
  | e202
  | e203
  | e300
  | e301
  | e302
  | e303
  | e304
  | e305
  deriving DecidableEq, Repr

namespace FaultCode

/-- All codes. -/
def all : List FaultCode :=
  [e100, e101, e102, e103, e104, e105, e106, e107, e108, e200, e201, e202, e203,
   e300, e301, e302, e303, e304, e305]

/-- The name of a code. -/
def name : FaultCode → String
  | e100 => "E100"
  | e101 => "E101"
  | e102 => "E102"
  | e103 => "E103"
  | e104 => "E104"
  | e105 => "E105"
  | e106 => "E106"
  | e107 => "E107"
  | e108 => "E108"
  | e200 => "E200"
  | e201 => "E201"
  | e202 => "E202"
  | e203 => "E203"
  | e300 => "E300"
  | e301 => "E301"
  | e302 => "E302"
  | e303 => "E303"
  | e304 => "E304"
  | e305 => "E305"

/-- The code of a given name. -/
def ofName? (text : String) : Option FaultCode := all.find? fun code => code.name == text

/-- What a code stands for. -/
def description : FaultCode → String
  | e100 => "unknown block type"
  | e101 => "duplicate block"
  | e102 => "missing element header"
  | e103 => "unknown element header"
  | e104 => "missing element"
  | e105 => "missing block name"
  | e106 => "invalid element value"
  | e107 => "missing description text"
  | e108 => "invalid type expression"
  | e200 => "undefined type"
  | e201 => "missing primary key"
  | e202 => "duplicate element name"
  | e203 => "invalid enum value"
  | e300 => "missing name or data marker"
  | e301 => "invalid access path"
  | e302 => "type mismatch"
  | e303 => "missing required value"
  | e304 => "duplicate key"
  | e305 => "ambiguous data section"

end FaultCode

/-- How grave a diagnostic is. -/
inductive Severity where
  | error
  | warning
  deriving DecidableEq, Repr

/-- The name of a severity. -/
def Severity.name : Severity → String
  | error => "error"
  | warning => "warning"

/-- A cell a diagnostic points at, and what it says there. -/
structure Label where
  cell : Cell
  message : String
  /-- Whether this is the cell at fault. -/
  isPrimary : Bool
  deriving DecidableEq, Repr

/-- A label at a cell at fault. -/
def Label.primary (cell : Cell) (message : String) : Label := ⟨cell, message, true⟩

/-- A label at a cell that explains a fault. -/
def Label.secondary (cell : Cell) (message : String) : Label := ⟨cell, message, false⟩

/-- A message about a sheet. -/
structure Diagnostic where
  severity : Severity
  code : Option FaultCode
  message : String
  labels : List Label
  help : Option String
  deriving DecidableEq, Repr

namespace Diagnostic

/-- The first cell at fault. -/
def faultCell? (diagnostic : Diagnostic) : Option Cell :=
  (diagnostic.labels.find? (·.isPrimary)).map (·.cell)

/-- A diagnostic on one line, behind its severity and code. -/
def display (diagnostic : Diagnostic) : String :=
  let code := match diagnostic.code with
    | some code => "[" ++ code.name ++ "]"
    | none => ""
  diagnostic.severity.name ++ code ++ ": " ++ diagnostic.message

/-- Several diagnostics on one line: the first one, and how many more there are. -/
def displayAll : List Diagnostic → String
  | [] => ""
  | [only] => only.display
  | first :: more => first.display ++ s!" (+{more.length} more)"

end Diagnostic
end TypedSheets

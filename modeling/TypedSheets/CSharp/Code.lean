import TypedSheets.Text.Blank
import TypedSheets.Text.Lines

/-!
# Code as a tree

Generated code is a list of lines and of scopes, a scope being a header with a body
between braces. Indentation follows from the nesting and is written with tabs.

## Main definitions

* `Code` — lines, blank lines and scopes.
* `Code.text` — the text of a list of them.
* `Code.summaryLines`, `Code.remark` — documentation comments.
* `CodeFile` — a generated file.
-/

namespace TypedSheets.CSharp

/-- A piece of generated code. -/
inductive Code where
  /-- One line. -/
  | line (text : String)
  /-- A blank line, without indentation. -/
  | blank
  /-- A header with a body between braces. -/
  | scope (header : String) (body : List Code)
  deriving Repr, Inhabited

namespace Code

/-- A line behind its indentation. -/
def indented (depth : Nat) (text : String) : String :=
  String.ofList (List.replicate depth '\t') ++ text

mutual

/-- The lines of a piece of code at a depth. -/
def lines (depth : Nat) : Code → List String
  | line text => [indented depth text]
  | blank => [""]
  | scope header body =>
    indented depth header :: indented depth "\x7b" ::
      linesOf (depth + 1) body ++ [indented depth "\x7d"]

/-- The lines of pieces of code at a depth. -/
def linesOf (depth : Nat) : List Code → List String
  | [] => []
  | piece :: rest => lines depth piece ++ linesOf depth rest

end

/-- The text of pieces of code. Every line is ended. -/
def text (code : List Code) : String := String.join ((linesOf 0 code).map (· ++ "\n"))

/-- Code in a scope, if there is a header for it. -/
def inScope? (header : Option String) (body : List Code) : List Code :=
  match header with
  | some header => [scope header body]
  | none => body

/-- The directives that bring namespaces into scope. -/
def usings (namespaces : List String) : List Code :=
  namespaces.map fun name => line ("using " ++ name ++ ";")

/-- A documentation comment of a type, line by line. -/
def summaryLines : Option String → List Code
  | none => []
  | some text =>
    line "/// <summary>" ::
      ((Text.lines text).map fun l => line ("/// " ++ Text.trimEnd l)) ++
      [line "/// </summary>"]

/-- A documentation comment of a member, on one line. -/
def remark : Option String → List Code
  | none => []
  | some text =>
    [line ("/// <summary> " ++ Text.trim (" ".intercalate (Text.lines text)) ++ " </summary>")]

end Code

/-- A generated file. -/
structure CodeFile where
  /-- The name of the file, with its extension. -/
  fileName : String
  text : String
  deriving DecidableEq, Repr

/-- The file of a type. -/
def CodeFile.ofType (name : String) (code : List Code) : CodeFile :=
  ⟨name ++ ".cs", Code.text code⟩

end TypedSheets.CSharp

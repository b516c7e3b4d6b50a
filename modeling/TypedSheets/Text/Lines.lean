/-!
# Lines of text

A line ends with a line feed, which a carriage return may precede. A final line
end opens no further line, so the empty text has no lines at all.
-/

namespace TypedSheets
namespace Text

/-- A line without the one carriage return that may stand before its line feed. -/
def dropReturn (line : List Char) : List Char :=
  match line.reverse with
  | '\r' :: rest => rest.reverse
  | _ => line

/-- The lines of `pending`, read so far in reverse, followed by `cs`. Only a line
that a line feed ends loses its carriage return. -/
def linesFrom (pending : List Char) : List Char → List (List Char)
  | [] => if pending.isEmpty then [] else [pending.reverse]
  | c :: cs =>
    if c = '\n' then dropReturn pending.reverse :: linesFrom [] cs
    else linesFrom (c :: pending) cs

/-- The lines of a text, without their line ends. -/
def lines (s : String) : List String := (linesFrom [] s.toList).map String.ofList

end Text
end TypedSheets

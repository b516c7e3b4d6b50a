/-!
# Blank text

Cells, names and values are compared after the blanks around them are dropped.
What counts as a blank is the Unicode property `White_Space`: twenty-five
characters in ten runs, listed once in `blankRuns`. Zero-width characters such
as U+200B and U+FEFF are not among them.

## Main definitions

* `isBlankChar` — membership of a character in the property.
* `trimEnd`, `trim` — text without the blanks at its ends.
* `isBlank` — text that trims to nothing.
-/

namespace TypedSheets
namespace Text

/-- The runs of the property `White_Space`, as inclusive ranges of code points. -/
def blankRuns : List (Nat × Nat) :=
  [(0x0009, 0x000D), (0x0020, 0x0020), (0x0085, 0x0085), (0x00A0, 0x00A0), (0x1680, 0x1680),
   (0x2000, 0x200A), (0x2028, 0x2029), (0x202F, 0x202F), (0x205F, 0x205F), (0x3000, 0x3000)]

/-- Whether a character is a blank. -/
def isBlankChar (c : Char) : Bool :=
  blankRuns.any fun run => run.1 ≤ c.toNat && c.toNat ≤ run.2

/-- Characters without the blanks at their start. -/
def dropBlanks (cs : List Char) : List Char := cs.dropWhile isBlankChar

/-- Characters without the blanks at their end. -/
def dropBlanksEnd (cs : List Char) : List Char := (cs.reverse.dropWhile isBlankChar).reverse

/-- Characters without the blanks at both ends. -/
def trimChars (cs : List Char) : List Char := dropBlanksEnd (dropBlanks cs)

/-- Text without the blanks at its end. -/
def trimEnd (s : String) : String := String.ofList (dropBlanksEnd s.toList)

/-- Text without the blanks at both ends. -/
def trim (s : String) : String := String.ofList (trimChars s.toList)

/-- Whether text holds blanks only. -/
def isBlank (s : String) : Bool := s.toList.all isBlankChar

/-- Text that is not blank, trimmed; `none` for blank text. -/
def trimmed? (s : String) : Option String :=
  if isBlank s then none else some (trim s)

/-- Whether text, after the blanks at its start, begins with `lead`. -/
def startsTrimmed (lead : List Char) (s : String) : Bool := lead.isPrefixOf (dropBlanks s.toList)

end Text
end TypedSheets

import TypedSheets.Toml.DateTime

/-!
# Tokens of configuration files

A configuration file is cut into words, quoted texts, marks, spaces and line ends. A
space is a token, since two brackets make a pair only without one between them; one
between a date and a time is part of the word, though. A hash starts a comment up to the
end of the line. A text between double quotes knows escapes, one between single quotes
does not. Three quotes on each side make a text of several lines, without the line end
right after the first ones.

## Main definitions

* `Toml.Token` — the tokens.
* `Toml.Mode`, `Toml.step?` — where the next character stands, and what it does.
* `Toml.tokens?` — the tokens of a file.
-/

namespace TypedSheets
namespace Toml

/-- A token of a configuration file. -/
inductive Token where
  | newline
  /-- A space or a tab. -/
  | space
  /-- `[` -/
  | opening
  /-- `]` -/
  | closing
  /-- The brace that opens a table within a line. -/
  | openBrace
  /-- The brace that closes it. -/
  | closeBrace
  /-- `=` -/
  | equals
  /-- `.` -/
  | dot
  /-- `,` -/
  | comma
  /-- A run of letters, digits and a few marks. -/
  | word (text : String)
  /-- A text that was between quotes. -/
  | text (s : String)
  /-- A text that was between three quotes on each side. -/
  | longText (s : String)
  deriving DecidableEq, Repr

/-- How a text is quoted. -/
structure Quoting where
  /-- Whether the quotes are double ones, between which there are escapes. -/
  isDouble : Bool
  /-- Whether there are three of them on each side. -/
  isLong : Bool
  deriving DecidableEq, Repr

namespace Quoting

/-- The quote itself. -/
def quote (q : Quoting) : Char := if q.isDouble then '"' else '\''

/-- The token of a text, given its characters in reverse. -/
def token (q : Quoting) (letters : List Char) : Token :=
  if q.isLong then .longText (String.ofList letters.reverse)
  else .text (String.ofList letters.reverse)

end Quoting

/-- Where the next character stands. Characters read so far are in reverse. -/
inductive Mode where
  /-- Between tokens. -/
  | blank
  | word (letters : List Char)
  /-- After a date and a space, which a time may follow. -/
  | dated (letters : List Char)
  | comment
  /-- After a carriage return, which only a line feed may follow. -/
  | lineEnd
  /-- After one quote. -/
  | quoted (isDouble : Bool)
  /-- After two quotes, which are an empty text unless a third one follows. -/
  | paired (isDouble : Bool)
  /-- After three quotes. -/
  | long (isDouble : Bool)
  /-- Between quotes. `quotes` tells how many quotes came right before, which end a long text
  if they are three or more. -/
  | text (q : Quoting) (letters : List Char) (quotes : Nat)
  /-- After a carriage return in a long text, and what the line feed leads to. -/
  | textLineEnd (after : Mode)
  /-- After a backslash. -/
  | escape (q : Quoting) (letters : List Char)
  /-- Before the last digits of a code point, at least one. -/
  | code (q : Quoting) (letters : List Char) (digits value : Nat)
  /-- Among the blanks after a backslash, which take a line end with them. -/
  | skipping (q : Quoting) (letters : List Char) (sawLineEnd : Bool)
  deriving DecidableEq, Repr

/-- Whether a character may stand in a word. -/
def isWordChar (c : Char) : Bool := c.isAlphanum || c = '_' || c = '-' || c = '+' || c = ':'

/-- Whether a character may stand in a text or a comment. -/
def isTextChar (c : Char) : Bool := c = '\t' || (0x20 ≤ c.toNat && c.toNat ≠ 0x7f)

/-- The token of a mark. -/
def mark? : Char → Option Token
  | '[' => some .opening
  | ']' => some .closing
  | '\x7b' => some .openBrace
  | '\x7d' => some .closeBrace
  | '=' => some .equals
  | '.' => some .dot
  | ',' => some .comma
  | _ => none

/-- The character that an escape of one letter stands for. -/
def simpleEscape? : Char → Option Char
  | 'b' => some '\x08'
  | 't' => some '\t'
  | 'n' => some '\n'
  | 'f' => some '\x0c'
  | 'r' => some '\r'
  | 'e' => some '\x1b'
  | '"' => some '"'
  | '\\' => some '\\'
  | _ => none

/-- How many digits follow the letter of an escape with a code point. -/
def codeDigits? : Char → Option Nat
  | 'x' => some 2
  | 'u' => some 4
  | 'U' => some 8
  | _ => none

/-- The value of a hexadecimal digit. -/
def hexDigit? (c : Char) : Option Nat :=
  if c.isDigit then some (c.toNat - '0'.toNat)
  else if 'a' ≤ c && c ≤ 'f' then some (c.toNat - 'a'.toNat + 10)
  else if 'A' ≤ c && c ≤ 'F' then some (c.toNat - 'A'.toNat + 10)
  else none

/-- The character of a code point. -/
def codePoint? (n : Nat) : Option Char :=
  if h : n.isValidChar then some (Char.ofNatAux n h) else none

/-! ### Steps -/

/-- What a character does: the tokens that are complete, and the mode after it. -/
abbrev Step := List Token × Mode

/-- The first step of a token, or what stands between tokens. -/
def start? (c : Char) : Option Step :=
  if c = ' ' || c = '\t' then some ([.space], .blank)
  else if c = '\n' then some ([.newline], .blank)
  else if c = '\r' then some ([], .lineEnd)
  else if c = '#' then some ([], .comment)
  else if c = '"' then some ([], .quoted true)
  else if c = '\'' then some ([], .quoted false)
  else if isWordChar c then some ([], .word [c])
  else (mark? c).map fun token => ([token], .blank)

/-- A step right after tokens that it completes. -/
def startAfter? (tokens : List Token) (c : Char) : Option Step :=
  (start? c).map fun (more, mode) => (tokens ++ more, mode)

/-- The token of a word, given its characters in reverse. -/
def wordToken (letters : List Char) : Token := .word (String.ofList letters.reverse)

/-- A step in a word. -/
def wordStep? (letters : List Char) (c : Char) : Option Step :=
  if isWordChar c then some ([], .word (c :: letters))
  else if c = ' ' && date? letters.reverse = some [] then some ([], .dated letters)
  else startAfter? [wordToken letters] c

/-- A step after a date and a space. -/
def datedStep? (letters : List Char) (c : Char) : Option Step :=
  if c.isDigit then some ([], .word (c :: ' ' :: letters))
  else startAfter? [wordToken letters, .space] c

/-- A step in a comment. -/
def commentStep? (c : Char) : Option Step :=
  if c = '\n' then some ([.newline], .blank)
  else if c = '\r' then some ([], .lineEnd)
  else if isTextChar c then some ([], .comment)
  else none

/-- The token of a long text that ends with the given number of quotes. Two of them may belong
to the text. -/
def longToken (q : Quoting) (letters : List Char) (quotes : Nat) : Token :=
  q.token (List.replicate (quotes - 3) q.quote ++ letters)

/-- A step between quotes, when the character is no quote. -/
def letterStep? (q : Quoting) (letters : List Char) (c : Char) : Option Step :=
  if c = '\\' && q.isDouble then some ([], .escape q letters)
  else if isTextChar c || (q.isLong && c = '\n') then some ([], .text q (c :: letters) 0)
  else if q.isLong && c = '\r' then
    some ([], .textLineEnd (.text q ('\n' :: '\r' :: letters) 0))
  else none

/-- A step between quotes. -/
def textStep? (q : Quoting) (letters : List Char) (quotes : Nat) (c : Char) : Option Step :=
  if c = q.quote then
    if !q.isLong then some ([q.token letters], .blank)
    else if quotes < 4 then some ([], .text q letters (quotes + 1))
    else some ([longToken q letters (quotes + 1)], .blank)
  else if 3 ≤ quotes then startAfter? [longToken q letters quotes] c
  else letterStep? q (List.replicate quotes q.quote ++ letters) c

/-- A step after a backslash. In a long text it takes blanks up to a line end, and all after
it, out of the text. -/
def escapeStep? (q : Quoting) (letters : List Char) (c : Char) : Option Step :=
  match codeDigits? c with
  | some digits => some ([], .code q letters digits 0)
  | none =>
    if q.isLong && (c = ' ' || c = '\t') then some ([], .skipping q letters false)
    else if q.isLong && c = '\n' then some ([], .skipping q letters true)
    else if q.isLong && c = '\r' then some ([], .textLineEnd (.skipping q letters true))
    else (simpleEscape? c).map fun d => ([], .text q (d :: letters) 0)

/-- A step in a code point. -/
def codeStep? (q : Quoting) (letters : List Char) (digits value : Nat) (c : Char) :
    Option Step := do
  let value := value * 16 + (← hexDigit? c)
  if 1 < digits then return ([], .code q letters (digits - 1) value)
  else return ([], .text q ((← codePoint? value) :: letters) 0)

/-- A step among the blanks after a backslash. -/
def skippingStep? (q : Quoting) (letters : List Char) (sawLineEnd : Bool) (c : Char) :
    Option Step :=
  if c = ' ' || c = '\t' then some ([], .skipping q letters sawLineEnd)
  else if c = '\n' then some ([], .skipping q letters true)
  else if c = '\r' then some ([], .textLineEnd (.skipping q letters true))
  else if sawLineEnd then textStep? q letters 0 c
  else none

/-- What a character does. -/
def step? : Mode → Char → Option Step
  | .blank, c => start? c
  | .word letters, c => wordStep? letters c
  | .dated letters, c => datedStep? letters c
  | .comment, c => commentStep? c
  | .lineEnd, c => if c = '\n' then some ([.newline], .blank) else none
  | .quoted isDouble, c =>
    let q : Quoting := ⟨isDouble, false⟩
    if c = q.quote then some ([], .paired isDouble) else letterStep? q [] c
  | .paired isDouble, c =>
    let q : Quoting := ⟨isDouble, false⟩
    if c = q.quote then some ([], .long isDouble) else startAfter? [q.token []] c
  | .long isDouble, c =>
    let q : Quoting := ⟨isDouble, true⟩
    if c = '\n' then some ([], .text q [] 0)
    else if c = '\r' then some ([], .textLineEnd (.text q [] 0))
    else textStep? q [] 0 c
  | .text q letters quotes, c => textStep? q letters quotes c
  | .textLineEnd after, c => if c = '\n' then some ([], after) else none
  | .escape q letters, c => escapeStep? q letters c
  | .code q letters digits value, c => codeStep? q letters digits value c
  | .skipping q letters sawLineEnd, c => skippingStep? q letters sawLineEnd c

/-- The tokens that are complete at the end of a file. -/
def last? : Mode → Option (List Token)
  | .blank | .comment => some []
  | .word letters => some [wordToken letters]
  | .dated letters => some [wordToken letters, .space]
  | .paired isDouble => some [Quoting.token ⟨isDouble, false⟩ []]
  | .text q letters quotes => if 3 ≤ quotes then some [longToken q letters quotes] else none
  | _ => none

/-- The tokens of characters, from a given mode on. -/
def tokensFrom : Mode → List Char → Option (List Token)
  | mode, [] => last? mode
  | mode, c :: cs => do
    let (tokens, mode) ← step? mode c
    return tokens ++ (← tokensFrom mode cs)

/-- The tokens of a file, a mark of the encoding at its start left out. -/
def tokens? (text : String) : Option (List Token) :=
  match text.toList with
  | '\ufeff' :: cs => tokensFrom .blank cs
  | cs => tokensFrom .blank cs

end Toml
end TypedSheets

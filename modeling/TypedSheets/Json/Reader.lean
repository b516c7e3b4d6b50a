import TypedSheets.Double.Reader
import TypedSheets.Json.Basic
import TypedSheets.Text.Blank

/-!
# Reading JSON text

Text is cut into tokens, and the tokens drive a machine with a stack of the arrays
and objects that are still open. The grammar is the strict one: four blank
characters between tokens, no leading zeros, no comma before a closing bracket, no
bare control characters in strings, and escaped surrogates in pairs only. At most
`maxDepth` brackets may be open at once. A name repeated in an object keeps its
first place and takes its last value.

## Main definitions

* `Json.tokens?` — the tokens of a text.
* `Json.Machine.step` — what one token does to the open brackets.
* `Json.read?` — the tree of a text.
-/

namespace TypedSheets
namespace Json

/-- How many arrays and objects may be open at once. -/
def maxDepth : Nat := 127

/-! ### Strings -/

/-- The value of a hexadecimal digit. -/
def hexValue? (c : Char) : Option Nat :=
  if c.isDigit then some (c.toNat - '0'.toNat)
  else if 'a' ≤ c ∧ c ≤ 'f' then some (c.toNat - 'a'.toNat + 10)
  else if 'A' ≤ c ∧ c ≤ 'F' then some (c.toNat - 'A'.toNat + 10)
  else none

/-- The code unit of four hexadecimal digits, and the characters after them. -/
def unit? : List Char → Option (Nat × List Char)
  | a :: b :: c :: d :: cs => do
    let a ← hexValue? a
    let b ← hexValue? b
    let c ← hexValue? c
    let d ← hexValue? d
    return (((a * 16 + b) * 16 + c) * 16 + d, cs)
  | _ => none

/-- The character of an escape after `\u`, and the characters after it. A unit of the
upper surrogates needs one of the lower ones escaped behind it. -/
def unicodeEscape? (cs : List Char) : Option (Char × List Char) := do
  let (unit, rest) ← unit? cs
  if 0xDC00 ≤ unit ∧ unit < 0xE000 then none
  else if 0xD800 ≤ unit ∧ unit < 0xDC00 then
    match rest with
    | '\\' :: 'u' :: rest =>
      let (low, rest) ← unit? rest
      if 0xDC00 ≤ low ∧ low < 0xE000 then
        return (Char.ofNat (0x10000 + (unit - 0xD800) * 0x400 + (low - 0xDC00)), rest)
      else none
    | _ => none
  else return (Char.ofNat unit, rest)

/-- The character of a one-letter escape. -/
def simpleEscape? : Char → Option Char
  | '"' => some '"'
  | '\\' => some '\\'
  | '/' => some '/'
  | 'b' => some '\x08'
  | 'f' => some '\x0c'
  | 'n' => some '\n'
  | 'r' => some '\r'
  | 't' => some '\t'
  | _ => none

/-- One character of a string after its opening quote, and the characters after it;
no character when the string closes. -/
def stringStep? : List Char → Option (Option Char × List Char)
  | '"' :: cs => some (none, cs)
  | '\\' :: 'u' :: cs => (unicodeEscape? cs).map fun (c, rest) => (some c, rest)
  | '\\' :: e :: cs => (simpleEscape? e).map fun c => (some c, cs)
  | c :: cs => if c.toNat < 0x20 ∨ c = '\\' then none else some (some c, cs)
  | [] => none

/-- The characters of a string after its opening quote, and those after its closing
one. Each step uses up a character, so as many steps as characters are enough. -/
def string? : Nat → List Char → Option (List Char × List Char)
  | 0, _ => none
  | steps + 1, cs => do
    match ← stringStep? cs with
    | (none, rest) => return ([], rest)
    | (some c, rest) =>
      let (more, rest) ← string? steps rest
      return (c :: more, rest)

/-! ### Numbers -/

/-- Digits without a leading zero, and what follows them. -/
def wholeDigits? (cs : List Char) : Option (List Char × List Char) :=
  let digits := cs.takeWhile Char.isDigit
  match digits with
  | [] => none
  | '0' :: _ :: _ => none
  | _ => some (digits, cs.dropWhile Char.isDigit)

/-- The digits of a fraction, of which there is at least one after a point. -/
def fractionDigits? : List Char → Option (List Char × List Char)
  | '.' :: cs =>
    let digits := cs.takeWhile Char.isDigit
    if digits.isEmpty then none else some (digits, cs.dropWhile Char.isDigit)
  | cs => some ([], cs)

/-- The sign of a power of ten, and what follows it. -/
def powerSign : List Char → Bool × List Char
  | '-' :: cs => (true, cs)
  | '+' :: cs => (false, cs)
  | cs => (false, cs)

/-- A power of ten after its mark, and what follows it; `none` inside when there is
no mark. -/
def tenPower? : List Char → Option (Option Int × List Char)
  | c :: cs =>
    if c = 'e' ∨ c = 'E' then
      let (negative, cs) := powerSign cs
      let digits := cs.takeWhile Char.isDigit
      let size : Int := Text.decimalValue digits
      if digits.isEmpty then none
      else some (some (if negative then -size else size), cs.dropWhile Char.isDigit)
    else some (none, c :: cs)
  | [] => some (none, [])

/-- Digits appended to a number as long as it fits sixty-four bits, and the digits that
are left. -/
def takeDigits : Nat → List Char → Nat × List Char
  | n, [] => (n, [])
  | n, c :: cs =>
    let next := 10 * n + Text.digitValue c
    if next ≤ Text.maxIndex then takeDigits next cs else (n, c :: cs)

/-- The greatest power of ten that a double is multiplied with or divided by. -/
def maxTenPower : Nat := 308

/-- The double nearest to a power of ten. -/
def tenDouble (power : Nat) : Double := .ofRatio false (Nat.pow 10 power) 1

/-- A number divided by a power of ten, after as many rounds with the greatest one. -/
def overTens : Nat → Double → Nat → Double
  | 0, x, power => x.div (tenDouble power)
  | rounds + 1, x, power =>
    if x.isZero then x else overTens rounds (x.div (tenDouble maxTenPower)) (power - maxTenPower)

/-- A significand with a power of ten as a double, which has to be finite. The significand
and the power are rounded each, and so is the result: it need not be the nearest double. -/
def scaled? (negative : Bool) (significand : Nat) (exponent : Int) : Option Double :=
  let x := Double.ofRatio negative significand 1
  let power := exponent.natAbs
  if exponent < 0 then some (overTens ((power - 1) / maxTenPower) x power)
  else if power ≤ maxTenPower then
    let product := x.mul (tenDouble power)
    if product.isFinite then some product else none
  else if x.isZero then some x
  else none

/-- The tree of a number: an integer if it is written with digits only and fits
sixty-four bits, else a double. The significand takes as many digits as fit, and goes on
after the point where it stopped before it. Minus zero has no integer. -/
def numberOf? (negative : Bool) (whole fraction : List Char) (power : Option Int) : Option Json :=
  let (size, more) := takeDigits 0 whole
  let n : Int := if negative then -size else size
  let fits := more.isEmpty && (!negative || (0 < size && Text.minLong ≤ n))
  if fraction.isEmpty && power.isNone && fits then some (.int n)
  else
    let (significand, rest) := takeDigits size fraction
    let exponent : Int := more.length - (fraction.length - rest.length : Nat) + power.getD 0
    (scaled? negative significand exponent).map .double

/-- Reads a number, and gives the characters after it. -/
def number? (cs : List Char) : Option (Json × List Char) := do
  let (negative, cs) := match cs with
    | '-' :: cs => (true, cs)
    | cs => (false, cs)
  let (whole, cs) ← wholeDigits? cs
  let (fraction, cs) ← fractionDigits? cs
  let (power, cs) ← tenPower? cs
  return (← numberOf? negative whole fraction power, cs)

/-! ### Tokens -/

/-- A token of JSON text. -/
inductive Token where
  | openArr
  | closeArr
  | openObj
  | closeObj
  | colon
  | comma
  /-- A string, which may be a name or a value. -/
  | text (s : String)
  /-- Any other value without parts. -/
  | atom (json : Json)

/-- The tree of a word. -/
def word? (cs : List Char) : Option Json :=
  match String.ofList cs with
  | "null" => some .null
  | "true" => some (.bool true)
  | "false" => some (.bool false)
  | _ => none

/-- The blanks between tokens. -/
def isSpace (c : Char) : Bool := c = ' ' || c = '\t' || c = '\n' || c = '\r'

/-- The bracket or mark a character is. -/
def mark? : Char → Option Token
  | '[' => some .openArr
  | ']' => some .closeArr
  | '\x7b' => some .openObj
  | '\x7d' => some .closeObj
  | ':' => some .colon
  | ',' => some .comma
  | _ => none

/-- The token at the start of characters that are no blank, and those after it. -/
def token? (cs : List Char) : Option (Token × List Char) :=
  match cs with
  | [] => none
  | c :: rest =>
    match mark? c with
    | some mark => some (mark, rest)
    | none =>
      if c = '"' then
        (string? (rest.length + 1) rest).map fun (s, rest) => (.text (String.ofList s), rest)
      else if c = '-' ∨ c.isDigit then
        (number? cs).map fun (json, rest) => (.atom json, rest)
      else
        (word? (cs.takeWhile Char.isAlpha)).map fun json =>
          (.atom json, cs.dropWhile Char.isAlpha)

/-- The tokens of characters, in at most the given number of steps. -/
def tokensIn? : Nat → List Char → Option (List Token)
  | 0, cs => if cs.isEmpty then some [] else none
  | steps + 1, cs =>
    match cs.dropWhile isSpace with
    | [] => some []
    | cs => do
      let (token, rest) ← token? cs
      return token :: (← tokensIn? steps rest)

/-- The tokens of a text. Each uses up a character, so as many steps as characters
are enough. -/
def tokens? (cs : List Char) : Option (List Token) := tokensIn? cs.length cs

/-! ### The machine -/

/-- An array or object that is still open. -/
inductive Frame where
  /-- The items so far, the last one first. -/
  | arr (items : List Json)
  /-- The members so far, and the name of the one being read. -/
  | obj (members : List (String × Json)) (name : String)

/-- What may come next. -/
inductive Expected where
  /-- A value. -/
  | value
  /-- A value, or the end of an array without items. -/
  | valueOrClose
  /-- A name. -/
  | name
  /-- A name, or the end of an object without members. -/
  | nameOrClose
  /-- The mark between a name and its value. -/
  | colon
  /-- A comma or the end of the innermost bracket. -/
  | next
  /-- Nothing: the whole tree was read. -/
  | done (json : Json)

/-- The state of reading: what may come next, and the open brackets, innermost
first. -/
structure Machine where
  expected : Expected
  stack : List Frame

namespace Machine

/-- The start of reading. -/
def start : Machine := ⟨.value, []⟩

/-- A value was read: it goes to the innermost bracket, or is the whole tree. -/
def deliver (json : Json) : List Frame → Machine
  | [] => ⟨.done json, []⟩
  | .arr items :: stack => ⟨.next, .arr (json :: items) :: stack⟩
  | .obj members name :: stack => ⟨.next, .obj (OrderedMap.insert members name json) name :: stack⟩

/-- A bracket opens. -/
def push (frame : Frame) (expected : Expected) (stack : List Frame) : Option Machine :=
  if stack.length < maxDepth then some ⟨expected, frame :: stack⟩ else none

/-- A token starts a value. -/
def value? (stack : List Frame) : Token → Option Machine
  | .openArr => push (.arr []) .valueOrClose stack
  | .openObj => push (.obj [] "") .nameOrClose stack
  | .text s => some (deliver (.str s) stack)
  | .atom json => some (deliver json stack)
  | _ => none

/-- A token names a member of the innermost object. -/
def name? (stack : List Frame) : Token → Option Machine
  | .text s => match stack with
    | .obj members _ :: stack => some ⟨.colon, .obj members s :: stack⟩
    | _ => none
  | _ => none

/-- A token closes the innermost bracket. -/
def close? (stack : List Frame) : Token → Option Machine
  | .closeArr => match stack with
    | .arr items :: stack => some (deliver (.arr items.reverse) stack)
    | _ => none
  | .closeObj => match stack with
    | .obj members _ :: stack => some (deliver (.obj members) stack)
    | _ => none
  | _ => none

/-- What one token does. -/
def step (m : Machine) (token : Token) : Option Machine :=
  match m.expected with
  | .value => value? m.stack token
  | .valueOrClose => (close? m.stack token).or (value? m.stack token)
  | .name => name? m.stack token
  | .nameOrClose => (close? m.stack token).or (name? m.stack token)
  | .colon => match token with
    | .colon => some ⟨.value, m.stack⟩
    | _ => none
  | .next => match token, m.stack with
    | .comma, .arr _ :: _ => some ⟨.value, m.stack⟩
    | .comma, .obj .. :: _ => some ⟨.name, m.stack⟩
    | token, stack => close? stack token
  | .done _ => none

/-- The tree that was read, if reading is over. -/
def result? (m : Machine) : Option Json :=
  match m.expected with
  | .done json => some json
  | _ => none

end Machine

/-- The tree of a text, ignoring blanks around it. -/
def read? (text : String) : Option Json := do
  let tokens ← tokens? (Text.trimChars text.toList)
  let machine ← tokens.foldlM Machine.step Machine.start
  machine.result?

end Json
end TypedSheets

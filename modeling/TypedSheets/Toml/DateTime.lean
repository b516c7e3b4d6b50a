import TypedSheets.Text.Integer

/-!
# Dates in configuration files

A date may stand with a time behind it, and then with an offset behind that; a time may
also stand alone. The fields have as many digits as they have by their kind, and the day
has to be one of its month. Seconds may be left out.

## Main definitions

* `Toml.date?`, `Toml.time?`, `Toml.offset?` — the parts, each with what follows it.
* `Toml.isDateTime` — whether characters are a date, a time, or both.
-/

namespace TypedSheets
namespace Toml

/-- A number of a given number of digits, and what follows it. -/
def digits? (count : Nat) (cs : List Char) : Option (Nat × List Char) :=
  let digits := cs.take count
  if digits.length = count && digits.all Char.isDigit then
    some (Text.decimalValue digits, cs.drop count)
  else none

/-- What follows a mark. -/
def skip? (mark : Char) : List Char → Option (List Char)
  | c :: cs => if c = mark then some cs else none
  | [] => none

/-- How many days a month has. -/
def daysIn (year month : Nat) : Nat :=
  if month = 2 then
    if year % 4 = 0 && (year % 100 ≠ 0 || year % 400 = 0) then 29 else 28
  else if month = 4 || month = 6 || month = 9 || month = 11 then 30
  else 31

/-- What follows a date. -/
def date? (cs : List Char) : Option (List Char) := do
  let (year, cs) ← digits? 4 cs
  let (month, cs) ← digits? 2 (← skip? '-' cs)
  let (day, cs) ← digits? 2 (← skip? '-' cs)
  if 1 ≤ month && month ≤ 12 && 1 ≤ day && day ≤ daysIn year month then return cs else none

/-- What follows an hour and a minute. -/
def clock? (cs : List Char) : Option (List Char) := do
  let (hour, cs) ← digits? 2 cs
  let (minute, cs) ← digits? 2 (← skip? ':' cs)
  if hour < 24 && minute < 60 then return cs else none

/-- What follows the parts of a second, if there are any. -/
def secondParts? : List Char → Option (List Char)
  | '.' :: cs =>
    if (cs.takeWhile Char.isDigit).isEmpty then none else some (cs.dropWhile Char.isDigit)
  | cs => some cs

/-- What follows a time. A minute may have a second more than sixty. -/
def time? (cs : List Char) : Option (List Char) := do
  match ← clock? cs with
  | ':' :: cs =>
    let (second, cs) ← digits? 2 cs
    if second ≤ 60 then secondParts? cs else none
  | cs => return cs

/-- What follows an offset. -/
def offset? : List Char → Option (List Char)
  | [] => none
  | c :: cs =>
    if c = 'Z' || c = 'z' then some cs
    else if c = '+' || c = '-' then clock? cs
    else none

/-- Whether a character may stand between a date and a time. -/
def isDateTimeMark (c : Char) : Bool := c = 'T' || c = 't' || c = ' '

/-- Whether characters are a date, a time, or both, in the last case perhaps with an
offset. -/
def isDateTime (cs : List Char) : Bool :=
  match date? cs with
  | none => time? cs = some []
  | some [] => true
  | some (mark :: cs) =>
    isDateTimeMark mark && match time? cs with
      | none => false
      | some [] => true
      | some cs => offset? cs = some []

end Toml
end TypedSheets

import TypedSheets.Json.Basic
import TypedSheets.Toml.Token

/-!
# Configuration files

A configuration file is a tree of tables, written line by line. A line in brackets
opens a table, one in double brackets adds a table to a list of them, and `key = value`
sets a value in the table opened last. A table may also be a value, written in braces;
nothing is added to it later. Nothing may be set or opened twice. Keys, and arrays and
tables inside each other, go down a limited number of levels.

## Main definitions

* `Toml.Node` — tables under construction.
* `Toml.openTable?`, `Toml.addTable?`, `Toml.setValue?` — what the lines do.
* `Toml.Machine` — a file read token by token.
* `Toml.read?` — the tree of a file.
-/

namespace TypedSheets
namespace Toml

/-- How a table came to be. -/
inductive Origin where
  /-- By the name of a table inside it. -/
  | implied
  /-- By a line of its own. -/
  | opened
  /-- By a key with dots. -/
  | dotted
  deriving DecidableEq, Repr

/-- A part of a tree under construction. -/
inductive Node where
  | value (json : Json)
  | table (origin : Origin) (members : List (String × Node))
  | tables (elements : List (List (String × Node)))
  deriving Repr, Inhabited

/-- The members of a table. -/
abbrev Members := List (String × Node)

/-! ### Tables -/

/-- Changes the table under a path of table names, which is created if need be. A list of
tables stands for its last one. -/
def modifyTable? (change : Members → Option Members) : List String → Members → Option Members
  | [], members => change members
  | name :: path, members =>
    match OrderedMap.get? members name with
    | none => do
      let inner ← modifyTable? change path []
      return OrderedMap.insert members name (.table .implied inner)
    | some (.table origin inner) => do
      let inner ← modifyTable? change path inner
      return OrderedMap.insert members name (.table origin inner)
    | some (.tables elements) => do
      let inner ← modifyTable? change path (elements.getLastD [])
      return OrderedMap.insert members name (.tables (elements.dropLast ++ [inner]))
    | some (.value _) => none

/-- Opens a table, which must not have been opened before. -/
def openTable? (path : List String) (name : String) (members : Members) : Option Members :=
  modifyTable? (fun members =>
    match OrderedMap.get? members name with
    | none => some (OrderedMap.insert members name (.table .opened []))
    | some (.table .implied inner) =>
      some (OrderedMap.insert members name (.table .opened inner))
    | some _ => none) path members

/-- Adds a table to a list of tables. -/
def addTable? (path : List String) (name : String) (members : Members) : Option Members :=
  modifyTable? (fun members =>
    match OrderedMap.get? members name with
    | none => some (OrderedMap.insert members name (.tables [[]]))
    | some (.tables elements) =>
      some (OrderedMap.insert members name (.tables (elements ++ [[]])))
    | some _ => none) path members

/-- Sets a value under a key with dots. No table on the way may have been opened, and the
one that gets the value must come from such a key. -/
def setKey? (json : Json) (name : String) : List String → Members → Option Members
  | [], members =>
    if OrderedMap.contains members name then none
    else some (OrderedMap.insert members name (.value json))
  | outer :: path, members =>
    match OrderedMap.get? members outer with
    | none => do
      let inner ← setKey? json name path []
      return OrderedMap.insert members outer (.table .dotted inner)
    | some (.table origin inner) => do
      if origin = .opened || (origin = .implied && path.isEmpty) then none
      let inner ← setKey? json name path inner
      return OrderedMap.insert members outer (.table origin inner)
    | some (.tables elements) => do
      if path.isEmpty then none
      let inner ← setKey? json name path (elements.getLastD [])
      return OrderedMap.insert members outer (.tables (elements.dropLast ++ [inner]))
    | some (.value _) => none

/-- Sets a value under a key of a table. -/
def setMember? (key : List String) (json : Json) (members : Members) : Option Members :=
  key.getLast?.bind fun name => setKey? json name key.dropLast members

/-- Sets a value under a key of a table with a given path. -/
def setValue? (table key : List String) (json : Json) (members : Members) : Option Members :=
  modifyTable? (setMember? key json) table members

/-! ### Trees -/

mutual

/-- The tree of a node. -/
def Node.json : Node → Json
  | .value json => json
  | .table _ members => .obj (jsonMembers members)
  | .tables elements => .arr (jsonElements elements)

/-- The members of a table as trees. -/
def jsonMembers : List (String × Node) → List (String × Json)
  | [] => []
  | (name, node) :: members => (name, node.json) :: jsonMembers members

/-- The tables of a list as trees. -/
def jsonElements : List (List (String × Node)) → List Json
  | [] => []
  | members :: elements => .obj (jsonMembers members) :: jsonElements elements

end

/-! ### Values -/

/-- Digits without the underscores between them. -/
def ungrouped? (digits : List Char) : Option (List Char) :=
  let groups := digits.splitOn '_'
  if groups.any List.isEmpty then none else some groups.flatten

/-- Digits without needless zeros. -/
def isTight : List Char → Bool
  | '0' :: _ :: _ => false
  | _ => true

/-- A number in a given base. -/
def basedNumber? (base : Nat) (digits : List Char) : Option Nat := do
  let digits ← ungrouped? digits
  digits.foldlM (fun n c => do
    let d ← hexDigit? c
    if d < base then return n * base + d else none) 0

/-- A sign and what follows it. -/
def splitSign : List Char → Bool × List Char
  | '-' :: cs => (true, cs)
  | '+' :: cs => (false, cs)
  | cs => (false, cs)

/-- A whole number, of any size. -/
def integer? : List Char → Option Int
  | '0' :: 'x' :: digits => (basedNumber? 16 digits).map Int.ofNat
  | '0' :: 'o' :: digits => (basedNumber? 8 digits).map Int.ofNat
  | '0' :: 'b' :: digits => (basedNumber? 2 digits).map Int.ofNat
  | cs =>
    let (negative, digits) := splitSign cs
    if isTight digits then
      (basedNumber? 10 digits).map fun n => if negative then -(n : Int) else n
    else none

/-- Whether a character starts an exponent. -/
def isPowerMark (c : Char) : Bool := c = 'e' || c = 'E'

/-- An exponent with its mark; `0` where there is none. -/
def exponent? : List Char → Option Int
  | [] => some 0
  | _ :: cs =>
    let (negative, digits) := splitSign cs
    (basedNumber? 10 digits).map fun n => if negative then -(n : Int) else n

/-- The digits after a point, with the point: their number, and how many they are. -/
def places? : List Char → Option (Nat × Nat)
  | [] => some (0, 0)
  | _ :: digits => do return (← basedNumber? 10 digits, (← ungrouped? digits).length)

/-- A fractional number: whole digits, then a point with digits, an exponent, or both. -/
def fractional? (cs : List Char) : Option Double := do
  let (negative, cs) := splitSign cs
  let mantissa := cs.takeWhile fun c => !isPowerMark c
  let whole := mantissa.takeWhile fun c => c ≠ '.'
  let n ← basedNumber? 10 whole
  let (fraction, places) ← places? (mantissa.dropWhile fun c => c ≠ '.')
  let exponent ← exponent? (cs.dropWhile fun c => !isPowerMark c)
  if isTight whole && whole.length < cs.length then
    return .ofDecimal negative (n * Nat.pow 10 places + fraction) (exponent - places)
  else none

/-- The tree that stands for a date or a time: one member, with its text. -/
def dateTime (word : String) : Json := .obj [("$__toml_private_datetime", .str word)]

/-- The value of a word. -/
def wordValue? (word : String) : Option Json :=
  match word with
  | "true" => some (.bool true)
  | "false" => some (.bool false)
  | "inf" | "+inf" => some (.double (.infinite false))
  | "-inf" => some (.double (.infinite true))
  | "nan" | "+nan" | "-nan" => some (.double .nan)
  | word =>
    match integer? word.toList with
    | some n => some (.int n)
    | none =>
      if isDateTime word.toList then some (dateTime word)
      else (fractional? word.toList).map .double

/-- The name that a word is as a key. -/
def wordKey? (word : String) : Option String :=
  if word.toList.all fun c => c.isAlphanum || c = '_' || c = '-' then some word else none

/-- The name that a token is as a key. -/
def key? : Token → Option String
  | .word word => wordKey? word
  | .text s => some s
  | _ => none

/-! ### Lines -/

/-- How many names a key may have, and how many arrays and tables may lie inside each
other. -/
def maxDepth : Nat := 80

/-- A path with one more name. -/
def longer? (path : List String) (name : String) : Option (List String) :=
  if path.length < maxDepth then some (path ++ [name]) else none

/-- An array or a table in braces that is still open. -/
inductive Frame where
  /-- The items so far, the last one first. -/
  | array (items : List Json)
  /-- The members so far, and the key of the one being read. -/
  | table (members : Members) (key : List String)
  deriving Repr

/-- Where a value stands: the key of its line, and what it is inside of, innermost first. -/
structure Place where
  key : List String
  frames : List Frame
  deriving Repr

namespace Place

/-- Whether line ends are allowed before a value. -/
def isInArray (place : Place) : Bool :=
  match place.frames with
  | .array _ :: _ => true
  | _ => false

/-- A place inside one more array or table. -/
def inside? (place : Place) (frame : Frame) : Option Place :=
  if place.frames.length < maxDepth then some { place with frames := frame :: place.frames }
  else none

end Place

/-- What the next token may be. -/
inductive Expected where
  /-- The start of a line. -/
  | line
  /-- A second bracket, right after the first, or a name in the brackets of a table. -/
  | bracket
  /-- A name in the brackets of a table, or of a list of tables. -/
  | header (isList : Bool) (path : List String)
  /-- A dot or the end of the brackets. -/
  | headerNext (isList : Bool) (path : List String)
  /-- The second closing bracket, right after the first. -/
  | headerEnd (path : List String)
  /-- A name of a key, after the names before it. -/
  | key (path : List String)
  /-- A dot or an equals sign. -/
  | keyNext (path : List String)
  /-- A name of a key in the given table in braces, around which there are others; the end of
  the table, if there are no names before it. -/
  | member (members : Members) (path : List String) (around : Place)
  /-- A dot or an equals sign in a table in braces. -/
  | memberNext (members : Members) (path : List String) (around : Place)
  /-- A value. `closes` tells whether the innermost array may end instead. -/
  | value (place : Place) (closes : Bool)
  /-- The rest of a value that is a word, or what follows it. -/
  | word (place : Place) (word : String)
  /-- A comma or the end of an array. -/
  | item (items : List Json) (around : Place)
  /-- A comma or the end of a table in braces. -/
  | entry (members : Members) (around : Place)
  /-- The end of a line. -/
  | lineEnd
  deriving Repr

/-- A file read up to some token. -/
structure Machine where
  /-- What was set so far. -/
  members : Members
  /-- The table opened last. -/
  table : List String
  expected : Expected
  deriving Repr

namespace Machine

/-- The machine at the start of a file. -/
def start : Machine := ⟨[], [], .line⟩

/-- The machine with something else expected. -/
def expect (m : Machine) (expected : Expected) : Machine := { m with expected }

/-- The machine with a header complete. -/
def opened? (m : Machine) (isList : Bool) (path : List String) : Option Machine := do
  let name ← path.getLast?
  let open? := if isList then addTable? else openTable?
  let members ← open? path.dropLast name m.members
  return ⟨members, path, .lineEnd⟩

/-- The machine with a value complete, which may be part of an array or a table. -/
def deliver? (m : Machine) (json : Json) (place : Place) : Option Machine :=
  match place.frames with
  | [] => do
    let members ← setValue? m.table place.key json m.members
    return ⟨members, m.table, .lineEnd⟩
  | .array items :: frames => some (m.expect (.item (json :: items) { place with frames }))
  | .table members key :: frames => do
    let members ← setMember? key json members
    return m.expect (.entry members { place with frames })

/-- The machine with an array complete. -/
def endArray? (m : Machine) (items : List Json) (around : Place) : Option Machine :=
  m.deliver? (.arr items.reverse) around

/-- The machine with a table in braces complete. -/
def endTable? (m : Machine) (members : Members) (around : Place) : Option Machine :=
  m.deliver? (.obj (jsonMembers members)) around

/-- The machine with a value complete that is a word. -/
def endWord? (m : Machine) (place : Place) (word : String) : Option Machine :=
  (wordValue? word).bind fun json => m.deliver? json place

/-- A step where a name of a header is expected. -/
def headerStep? (m : Machine) (isList : Bool) (path : List String) (token : Token) :
    Option Machine := do
  return m.expect (.headerNext isList (← longer? path (← key? token)))

/-- A step after the first bracket of a line. A second one makes it a list. -/
def bracketStep? (m : Machine) : Token → Option Machine
  | .opening => some (m.expect (.header true []))
  | .space => some (m.expect (.header false []))
  | token => m.headerStep? false [] token

/-- A step after a name of a header. -/
def headerNextStep? (m : Machine) (isList : Bool) (path : List String) : Token → Option Machine
  | .dot => some (m.expect (.header isList path))
  | .closing => if isList then some (m.expect (.headerEnd path)) else m.opened? false path
  | _ => none

/-- A step where a name of a key is expected. -/
def keyStep? (m : Machine) (path : List String) (token : Token) : Option Machine := do
  return m.expect (.keyNext (← longer? path (← key? token)))

/-- A step after a name of a key. -/
def keyNextStep? (m : Machine) (path : List String) : Token → Option Machine
  | .dot => some (m.expect (.key path))
  | .equals => some (m.expect (.value ⟨path, []⟩ false))
  | _ => none

/-- A step where a name of a key in braces is expected. Line ends are allowed around the
members, not in a key. -/
def memberStep? (m : Machine) (members : Members) (path : List String) (around : Place)
    (token : Token) : Option Machine :=
  match token, path with
  | .newline, [] => some m
  | .closeBrace, [] => m.endTable? members around
  | token, path => do
    return m.expect (.memberNext members (← longer? path (← key? token)) around)

/-- A step after a name of a key in braces. -/
def memberNextStep? (m : Machine) (members : Members) (path : List String) (around : Place) :
    Token → Option Machine
  | .dot => some (m.expect (.member members path around))
  | .equals => do return m.expect (.value (← around.inside? (.table members path)) false)
  | _ => none

/-- A step at the start of a line. -/
def lineStep? (m : Machine) : Token → Option Machine
  | .newline => some m
  | .opening => some (m.expect .bracket)
  | token => m.keyStep? [] token

/-- A step where a value is expected. Line ends are allowed inside arrays. -/
def valueStep? (m : Machine) (place : Place) (closes : Bool) : Token → Option Machine
  | .newline => if place.isInArray then some m else none
  | .opening => do return m.expect (.value (← place.inside? (.array [])) true)
  | .openBrace =>
    if place.frames.length < maxDepth then some (m.expect (.member [] [] place)) else none
  | .closing =>
    match place.frames with
    | .array items :: frames => if closes then m.endArray? items { place with frames } else none
    | _ => none
  | .text s | .longText s => m.deliver? (.str s) place
  | .word word => some (m.expect (.word place word))
  | _ => none

/-- A step after an item of an array. -/
def itemStep? (m : Machine) (items : List Json) (around : Place) : Token → Option Machine
  | .newline => some m
  | .comma => do return m.expect (.value (← around.inside? (.array items)) true)
  | .closing => m.endArray? items around
  | _ => none

/-- A step after a member of a table in braces. -/
def entryStep? (m : Machine) (members : Members) (around : Place) : Token → Option Machine
  | .newline => some m
  | .comma => some (m.expect (.member members [] around))
  | .closeBrace => m.endTable? members around
  | _ => none

/-- The machine after a token that is not part of a word. Spaces change nothing, except
next to a bracket that may be one of a pair. -/
def partStep? (m : Machine) (token : Token) : Option Machine :=
  match m.expected, token with
  | .bracket, token => m.bracketStep? token
  | .headerEnd path, token => if token = .closing then m.opened? true path else none
  | _, .space => some m
  | .line, token => m.lineStep? token
  | .header isList path, token => m.headerStep? isList path token
  | .headerNext isList path, token => m.headerNextStep? isList path token
  | .key path, token => m.keyStep? path token
  | .keyNext path, token => m.keyNextStep? path token
  | .member members path around, token => m.memberStep? members path around token
  | .memberNext members path around, token => m.memberNextStep? members path around token
  | .value place closes, token => m.valueStep? place closes token
  | .word .., _ => none
  | .item items around, token => m.itemStep? items around token
  | .entry members around, token => m.entryStep? members around token
  | .lineEnd, token => if token = .newline then some (m.expect .line) else none

/-- The machine after a token. A word that is a value goes on over dots, and ends with the
token after it. -/
def step? (m : Machine) (token : Token) : Option Machine :=
  match m.expected, token with
  | .word place word, .word more => some (m.expect (.word place (word ++ more)))
  | .word place word, .dot => some (m.expect (.word place (word ++ ".")))
  | .word place word, token => (m.endWord? place word).bind fun m => m.partStep? token
  | _, token => m.partStep? token

/-- What a file holds, if it ends between lines. -/
def result? (m : Machine) : Option Members :=
  match m.expected with
  | .line | .lineEnd => some m.members
  | .word ⟨key, []⟩ word => (m.endWord? ⟨key, []⟩ word).map (·.members)
  | _ => none

end Machine

/-- The tree of a file. -/
def read? (text : String) : Option Json := do
  let tokens ← tokens? text
  let machine ← tokens.foldlM Machine.step? Machine.start
  let members ← machine.result?
  return .obj (jsonMembers members)

end Toml
end TypedSheets

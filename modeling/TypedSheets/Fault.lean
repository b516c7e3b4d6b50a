import TypedSheets.Diagnostic
import TypedSheets.Grid
import TypedSheets.Schema.Basic
import TypedSheets.Value.Key

/-!
# Faults of a sheet

Everything that stops the compilation of a sheet, by cause. A fault carries the
cells and names involved; its wording, code and help are given in one place each,
and `Fault.diagnostic` puts them together.

## Main definitions

* `PathError` — why a path does not lead to a field.
* `Fault` — the causes.
* `Fault.code?`, `Fault.message`, `Fault.labels`, `Fault.help` — what is said of them.
* `Fault.diagnostic` — the diagnostic of a fault.
-/

namespace TypedSheets

/-- The largest index a path may hold. -/
def greatestIndex : Nat := 4095

/-- Why a path does not lead to a field. -/
inductive PathError where
  /-- An index into something that is no list. -/
  | notAList (index : Nat)
  /-- An index past `greatestIndex`. -/
  | indexTooLarge (index : Nat)
  /-- A record without a shape. -/
  | undefinedRecord (name : String)
  /-- A field of something that is no record. -/
  | notARecord (segment : String) (type : ResolvedType)
  /-- A field the record does not have. -/
  | noField (segment : String)
  /-- Nothing but separators. -/
  | noSegments
  deriving DecidableEq, Repr

/-- The wording of a path error. -/
def PathError.message : PathError → String
  | notAList index => s!"`[{index}]` indexes a value that is not a list"
  | indexTooLarge index => s!"`[{index}]` is past the largest list index {greatestIndex}"
  | undefinedRecord name => s!"record `{name}` is not defined"
  | notARecord segment type => s!"`{segment}` is not a field of `{type.text}`"
  | noField segment => s!"no field named `{segment}`"
  | noSegments => "the path has no segments"

/-- What a path expects to find on its way. -/
inductive Container where
  | record
  | list
  deriving DecidableEq, Repr

/-- A container with its article. -/
def Container.phrase : Container → String
  | record => "a record"
  | list => "a list"

/-- A cause that stops the compilation of a sheet. -/
inductive Fault where
  /-- A block does not fit into the sheet. -/
  | badRange (error : RangeError) (cell : Cell)
  /-- A header with an unknown tag, or none. -/
  | unknownBlock (tag : String) (cell : Cell)
  /-- A second block of a kind that occurs once. -/
  | repeatedBlock (kind : BlockKind) (cell first : Cell)
  /-- A block without a column it needs. -/
  | missingColumn (name : String) (block : Cell)
  /-- A column header that the block does not know. -/
  | unknownColumn (text : String) (known : List String) (cell : Cell)
  /-- A column header that occurs twice. -/
  | repeatedColumn (text : String) (cell first : Cell)
  /-- A blank cell in a column that needs text. -/
  | blankElement (column : String) (cell : Cell)
  /-- A block without the name its kind needs. -/
  | missingName (kind : BlockKind) (cell : Cell)
  /-- A flag that is neither `true` nor `false`. -/
  | badFlag (text column : String) (cell : Cell)
  /-- An optional field whose type is not nullable. -/
  | notNullable (type : WrittenType) (cell : Cell)
  /-- A description without text. -/
  | missingText (cell : Cell)
  /-- A type cell that holds no type. -/
  | badType (text : String) (cell : Cell)
  /-- A type name that nothing declares. -/
  | undefinedType (name : String) (cell : Cell)
  /-- A design without a key. -/
  | missingKey (block : Cell)
  /-- An element name that occurs twice in its block. -/
  | repeatedElement (name : String) (cell first : Cell)
  /-- A type name declared twice by a sheet. -/
  | repeatedType (name : String) (cell first : Cell)
  /-- A number of an enumeration that is no integer. -/
  | notAnInteger (text : String) (backing : Scalar) (cell : Cell)
  /-- A number of an enumeration outside the range of its type. -/
  | outOfRange (value : Int) (member : String) (backing : Scalar) (cell : Cell)
  /-- A design without a row of paths; the marker is named as the sheet writes it. -/
  | missingNameRow (marker : String) (design : Cell)
  /-- A marker of paths at the end of the sheet. -/
  | missingPathRow (marker : Cell)
  /-- No marker above the data rows. -/
  | missingDataRow (nameMarker : Cell)
  /-- A row between the paths and the marker of the data rows. -/
  | strayRow (cell marker : Cell)
  /-- A marker of data rows in a dialect without them. -/
  | unexpectedDataRow (marker : Cell)
  /-- A path that leads nowhere. -/
  | badPath (path : String) (reason : PathError) (cell : Cell)
  /-- A path that meets a value of another kind in some row. -/
  | unreachable (path : String) (expected : Container) (cell : Cell)
  /-- A cell text that is no value of its type. -/
  | mismatch (error : Mismatch) (cell : Cell)
  /-- A constant whose text is no value of its type. -/
  | constantMismatch (name : String) (error : Mismatch) (cell typeCell : Cell)
  /-- A blank cell where a value is needed. -/
  | missingValue (path : String) (cell : Cell)
  /-- A key that an earlier row has. -/
  | repeatedKey (key : Key) (cell first : Cell)
  deriving Repr

namespace Fault

/-- The code of a fault. A block that does not fit has none. -/
def code? : Fault → Option FaultCode
  | badRange .. => none
  | unknownBlock .. => some .e100
  | repeatedBlock .. => some .e101
  | missingColumn .. => some .e102
  | unknownColumn .. | repeatedColumn .. => some .e103
  | blankElement .. => some .e104
  | missingName .. => some .e105
  | badFlag .. | notNullable .. => some .e106
  | missingText .. => some .e107
  | badType .. => some .e108
  | undefinedType .. => some .e200
  | missingKey .. => some .e201
  | repeatedElement .. | repeatedType .. => some .e202
  | notAnInteger .. | outOfRange .. => some .e203
  | missingNameRow .. | missingPathRow .. | missingDataRow .. => some .e300
  | strayRow .. | unexpectedDataRow .. => some .e305
  | badPath .. | unreachable .. => some .e301
  | mismatch .. | constantMismatch .. => some .e302
  | missingValue .. => some .e303
  | repeatedKey .. => some .e304

/-- The wording of a fault. -/
def message : Fault → String
  | badRange error _ => error.message
  | unknownBlock tag _ => s!"unknown block type `{tag}`"
  | repeatedBlock kind .. => s!"`{kind.tag}` block appears more than once"
  | missingColumn name _ => s!"missing element header `{name}`"
  | unknownColumn text .. => s!"unknown element header `{text}`"
  | repeatedColumn text .. => s!"element header `{text}` appears twice"
  | blankElement column _ => s!"missing `{column}` element"
  | missingName kind _ => s!"`{kind.tag}` block has no name"
  | badFlag text column _ => s!"`{text}` is not a valid `{column}` value"
  | notNullable type _ => s!"only nullable fields can be optional, found `{type.text}`"
  | missingText _ => "`Description` block has no text"
  | badType text _ => s!"`{text}` is not a valid type"
  | undefinedType name _ => s!"undefined type `{name}`"
  | missingKey _ => "`Design` block has no primary key"
  | repeatedElement name .. => s!"element `{name}` is declared twice"
  | repeatedType name .. => s!"type `{name}` is declared twice"
  | notAnInteger text .. => s!"`{text}` is not an integer"
  | outOfRange value member backing _ =>
    s!"value {value} of `{member}` does not fit in `{backing.keyword}`"
  | missingNameRow .. => "the Design block has no `[Name]` row"
  | missingPathRow _ => "the `[Name]` row has no path row below it"
  | missingDataRow _ => "the data section has no `[Data]` row"
  | strayRow .. => "rows between the path row and `[Data]`"
  | unexpectedDataRow _ => "`[Data]` row found but data markers are disabled"
  | badPath path .. => s!"invalid access path `{path}`"
  | unreachable path expected _ => s!"`{path}` does not reach {expected.phrase} in this row"
  | mismatch error _ => error.message
  | constantMismatch name error .. => s!"constant `{name}`: {error.message}"
  | missingValue path _ => s!"`{path}` requires a value"
  | repeatedKey key .. => s!"duplicate key `{key.display}`"

/-- The cells of a fault, the one at fault first. -/
def labels : Fault → List Label
  | badRange _ cell => [.primary cell "block"]
  | unknownBlock _ cell => [.primary cell "unrecognized block header"]
  | repeatedBlock _ cell first =>
    [.primary cell "duplicate block", .secondary first "first declared here"]
  | missingColumn _ block => [.primary block "block declared here"]
  | unknownColumn _ _ cell => [.primary cell "not a column of this block"]
  | repeatedColumn _ cell first =>
    [.primary cell "duplicate header", .secondary first "first used here"]
  | blankElement _ cell => [.primary cell "this cell must not be blank"]
  | missingName _ cell => [.primary cell "expected a name here"]
  | badFlag _ _ cell => [.primary cell "expected `true` or `false`"]
  | notNullable _ cell => [.primary cell "field is not nullable"]
  | missingText cell => [.primary cell "expected the description here"]
  | badType _ cell => [.primary cell "invalid type expression"]
  | undefinedType _ cell => [.primary cell "unknown type"]
  | missingKey block => [.primary block "block declared here"]
  | repeatedElement _ cell first =>
    [.primary cell "duplicate element", .secondary first "first declared here"]
  | repeatedType _ cell first =>
    [.primary cell "duplicate type", .secondary first "first declared here"]
  | notAnInteger _ _ cell => [.primary cell "invalid enum value"]
  | outOfRange _ _ _ cell => [.primary cell "invalid enum value"]
  | missingNameRow _ design => [.primary design "Design block declared here"]
  | missingPathRow marker => [.primary marker "`[Name]` marker"]
  | missingDataRow nameMarker => [.primary nameMarker "data section starts here"]
  | strayRow cell marker =>
    [.primary cell "neither a path nor a data row", .secondary marker "`[Data]` marker"]
  | unexpectedDataRow marker => [.primary marker "unexpected marker"]
  | badPath _ reason cell => [.primary cell reason.message]
  | unreachable _ _ cell => [.primary cell "value not assigned"]
  | mismatch error cell => [.primary cell s!"expected `{error.expected}`"]
  | constantMismatch _ error cell typeCell =>
    [.primary cell s!"expected `{error.expected}`", .secondary typeCell "type declared here"]
  | missingValue _ cell => [.primary cell "blank cell"]
  | repeatedKey _ cell first =>
    [.primary cell "duplicate key", .secondary first "first used here"]

/-- What may be done about a fault. -/
def help : Fault → Option String
  | unknownBlock .. =>
    some "expected one of: Description, Enum, Record, Interface, Constant, Design, Name, Data"
  | missingColumn name _ => some s!"add a `{name}` column to the row below the block header"
  | unknownColumn _ known _ => some ("expected one of: " ++ ", ".intercalate known)
  | notNullable type _ => some s!"declare the type as `{type.text}?`"
  | badType .. => some "use a scalar keyword, a type name, `List<T>` or `T?`"
  | undefinedType .. =>
    some ("declare an Enum or Record block with this name, " ++
      "or mark one in another sheet as `Global`")
  | missingKey _ => some "set `IsPrimaryKey` to `true` on at least one field"
  | notAnInteger _ backing _ => some s!"the enum is backed by `{backing.keyword}`"
  | outOfRange _ _ backing _ => some s!"the enum is backed by `{backing.keyword}`"
  | missingNameRow marker _ => some s!"add a `[{marker}]` row followed by a row of field paths"
  | missingDataRow _ => some "add a `[Data]` row above the data rows, or disable data markers"
  | unexpectedDataRow _ => some "remove the row, or enable `use_data_marker`"
  | missingValue .. => some "only list elements and nullable fields may be left blank"
  | repeatedKey .. => some "every data row needs a distinct primary key"
  | _ => none

/-- The diagnostic of a fault. -/
def diagnostic (fault : Fault) : Diagnostic :=
  ⟨.error, fault.code?, fault.message, fault.labels, fault.help⟩

end Fault
end TypedSheets

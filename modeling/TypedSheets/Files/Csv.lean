/-!
# Comma separated values

Records of fields in the bytes of a file. Commas part fields; a line feed or carriage
return ends a record, and empty lines hold none. A field that starts with a quote runs
to the next quote that is not doubled, whatever lies between, and what follows up to
the end of the field is part of it. A quote anywhere else is a plain character. A mark
of the encoding at the start of the file is left out.

## Main definitions

* `Csv.records` — the records of a file, as bytes.
* `Csv.rows?` — the records of a file, as texts.
-/

namespace TypedSheets
namespace Csv

/-- Where in a record the next byte stands. -/
inductive Mode where
  /-- Before the first byte of a record. -/
  | lineStart
  /-- Before the first byte of a further field. -/
  | fieldStart
  /-- Inside a field, outside of quotes. -/
  | plain
  /-- Between quotes. -/
  | quoted
  /-- After a quote between quotes. -/
  | quoteEnd
  deriving DecidableEq, Repr

/-- The byte that parts fields. -/
def comma : UInt8 := 0x2c

/-- The byte of a quote. -/
def quoteMark : UInt8 := 0x22

/-- Whether a byte ends a line. -/
def isLineEnd (b : UInt8) : Bool := b = 0x0a || b = 0x0d

/-- The records of bytes, from a given mode on, behind the field and the record read so
far, both in reverse. -/
def recordsFrom : Mode → List UInt8 → List (List UInt8) → List UInt8 → List (List (List UInt8))
  | mode, field, record, [] =>
    if mode = .lineStart then [] else [(field.reverse :: record).reverse]
  | .quoted, field, record, b :: bs =>
    if b = quoteMark then recordsFrom .quoteEnd field record bs
    else recordsFrom .quoted (b :: field) record bs
  | mode, field, record, b :: bs =>
    if b = quoteMark && mode = .quoteEnd then recordsFrom .quoted (b :: field) record bs
    else if b = quoteMark && mode ≠ .plain then recordsFrom .quoted field record bs
    else if b = comma then recordsFrom .fieldStart [] (field.reverse :: record) bs
    else if isLineEnd b then
      if mode = .lineStart then recordsFrom .lineStart [] [] bs
      else (field.reverse :: record).reverse :: recordsFrom .lineStart [] [] bs
    else recordsFrom .plain (b :: field) record bs

/-- Bytes without the mark of the encoding. -/
def dropMark : List UInt8 → List UInt8
  | 0xef :: 0xbb :: 0xbf :: bs => bs
  | bs => bs

/-- The records of a file, as bytes. -/
def records (bytes : List UInt8) : List (List (List UInt8)) :=
  recordsFrom .lineStart [] [] (dropMark bytes)

/-- The records of a file, as texts; `none` when a field is no text. -/
def rows? (bytes : List UInt8) : Option (List (List String)) :=
  (records bytes).mapM fun record =>
    record.mapM fun field => String.fromUTF8? ⟨field.toArray⟩

end Csv
end TypedSheets

import TypedSheets.Catalog.Basic

/-!
# Paths of data columns

The cell above a data column holds a path such as `Icon.Atlas` or `Tags[0]`: fields
and list indices between dots and brackets. A path is followed through the types of
the sheet into steps, each with the type of the slot that it reaches.

## Main definitions

* `Step` — a field or an index, with the type of what it reaches.
* `Plan` — a data column with the steps of its path.
* `Step.ofSegments` — the steps of a list of segments.
* `Plan.ofRow` — the plans of a row of paths.
-/

namespace TypedSheets

/-- A step of a path, with the type of the slot that it reaches. -/
inductive Step where
  /-- Into a field of a record, by its generated name. -/
  | field (name : String) (type : ResolvedType)
  /-- Into an item of a list. -/
  | index (i : Nat) (type : ResolvedType)
  deriving DecidableEq, Repr

namespace Step

/-- The type of the slot that a step reaches. -/
def type : Step → ResolvedType
  | field _ type => type
  | index _ type => type

/-- Whether a character parts the segments of a path. -/
def isPathMark (c : Char) : Bool := c = '.' || c = '[' || c = ']'

/-- The segments of a path. -/
def segments (path : String) : List String := trimmedPieces isPathMark path

/-- The step of an index into a type; the start of a path has none. -/
def ofIndex (i : Nat) (current : Option ResolvedType) : Except PathError Step :=
  match current.bind ResolvedType.element? with
  | none => .error (.notAList i)
  | some element => if greatestIndex < i then .error (.indexTooLarge i) else .ok (.index i element)

/-- The shape that a segment is looked up in. The start of a path is the row itself. -/
def shapeAt (catalog : Catalog) (entity : Shape) (segment : String) :
    Option ResolvedType → Except PathError Shape
  | none => .ok entity
  | some (.record name) =>
    match catalog.record? name with
    | some shape => .ok shape
    | none => .error (.undefinedRecord name)
  | some other => .error (.notARecord segment other)

/-- The step of a segment: an index if it reads as one, else a field. -/
def ofSegment (catalog : Catalog) (entity : Shape) (current : Option ResolvedType)
    (segment : String) : Except PathError Step :=
  match Text.index? segment.toList with
  | some i => ofIndex i current
  | none => do
    let shape ← shapeAt catalog entity segment current
    match catalog.field? shape segment with
    | some found => return .field found.emitted found.type
    | none => throw (.noField segment)

/-- The steps of a list of segments, from what the segments before them reach. -/
def ofSegments (catalog : Catalog) (entity : Shape) :
    Option ResolvedType → List String → Except PathError (List Step)
  | _, [] => .ok []
  | current, segment :: rest => do
    let step ← ofSegment catalog entity current segment
    return step :: (← ofSegments catalog entity (some step.type.bare) rest)

end Step

/-- A data column with the steps of its path. -/
structure Plan where
  col : Nat
  /-- The path as written, trimmed. -/
  path : String
  steps : List Step
  /-- The type of the slot that the last step reaches. -/
  leaf : ResolvedType
  deriving DecidableEq, Repr

namespace Plan

/-- Whether a path goes through or ends in a list. -/
def meetsList (plan : Plan) : Bool := plan.steps.any fun step => step.type.bare.isList

/-- Whether a blank cell leaves the value of a column as it is. -/
def mayBeBlank (plan : Plan) : Bool := plan.meetsList || plan.leaf.stored.isNullable

/-- The plan of a column by the path above it. -/
def ofPath (catalog : Catalog) (entity : Shape) (col : Nat) (path : String) :
    Except PathError Plan := do
  let steps ← Step.ofSegments catalog entity none (Step.segments path)
  match steps.getLast? with
  | some last => return ⟨col, Text.trim path, steps, last.type⟩
  | none => throw .noSegments

/-- The plan of a column; `none` when its path is skipped. -/
def ofColumn (dialect : Dialect) (catalog : Catalog) (entity : Shape) (view : View)
    (pathRow col : Nat) : Except Fault (Option Plan) :=
  let cell := view.text? pathRow col
  if dialect.ignores cell then .ok none
  else match cell with
    | none => .ok none
    | some path =>
      match ofPath catalog entity col path with
      | .ok plan => .ok (some plan)
      | .error reason => .error (.badPath (Text.trim path) reason (view.place pathRow col))

/-- The plans of a row of paths. -/
def ofRow (dialect : Dialect) (catalog : Catalog) (entity : Shape) (view : View)
    (pathRow : Nat) : Except Fault (List Plan) := do
  let plans ← (List.range view.width).mapM (ofColumn dialect catalog entity view pathRow)
  return plans.filterMap id

end Plan
end TypedSheets

import TypedSheets.Compiler

/-!
# What a catalog is used for

A catalog is asked for little: the shapes of rows, constants and records, the value of a text
of an enumeration, and the member that stands for zero.  Catalogs that answer alike are as good
as one another: values are read and written alike, and the generated code is the same.  How a
catalog finds its answers does not show, neither the order of its maps nor the cells of its
declarations.

## Main definitions

* `Catalog.Agrees` — catalogs that answer alike.

## Main results

* `Catalog.Agrees.ofText`, `Catalog.Agrees.readRow` — values.
* `SheetValues.read_agrees` — **all data of a sheet.**
* `SheetValues.document?_agrees` — **documents.**
* `CSharp.sheetFile_agrees` — **generated code.**
-/

namespace TypedSheets

/-- That two catalogs answer alike. -/
structure Catalog.Agrees (catalog catalog' : Catalog) : Prop where
  naming : catalog'.naming = catalog.naming
  entity : catalog'.entity = catalog.entity
  constants : catalog'.constants = catalog.constants
  record? : catalog'.record? = catalog.record?
  ofEnumText? : catalog'.ofEnumText? = catalog.ofEnumText?
  enumZero : catalog'.enumZero = catalog.enumZero

namespace Catalog.Agrees

variable {catalog catalog' : Catalog}

theorem symm (h : catalog.Agrees catalog') : catalog'.Agrees catalog :=
  ⟨h.naming.symm, h.entity.symm, h.constants.symm, h.record?.symm, h.ofEnumText?.symm,
    h.enumZero.symm⟩

theorem trans {catalog'' : Catalog} (h : catalog.Agrees catalog')
    (h' : catalog'.Agrees catalog'') : catalog.Agrees catalog'' :=
  ⟨h'.naming.trans h.naming, h'.entity.trans h.entity, h'.constants.trans h.constants,
    h'.record?.trans h.record?, h'.ofEnumText?.trans h.ofEnumText?, h'.enumZero.trans h.enumZero⟩

section Leaves

variable (h : catalog.Agrees catalog')

include h

/-! ### Values nothing was written to -/

theorem field? : catalog'.field? = catalog.field? := by
  funext shape name
  rw [Catalog.field?, Catalog.field?, h.naming]

theorem blank : catalog'.blank = catalog.blank := by
  funext type
  induction type with
  | «enum» name => rw [Catalog.blank, Catalog.blank, h.enumZero]
  | reference key target ih => rw [Catalog.blank, Catalog.blank, ih]
  | _ => rfl

theorem zero : catalog'.zero = catalog.zero := by
  funext type
  induction type with
  | «enum» name =>
    show catalog'.blank (.enum name) = catalog.blank (.enum name)
    rw [h.blank]
  | record name => rw [Catalog.zero, Catalog.zero, h.record?, h.blank]
  | reference key target ih => rw [Catalog.zero, Catalog.zero, ih]
  | _ => rfl

theorem newRow : catalog'.newRow = catalog.newRow := by
  have hfield : catalog'.rowField = catalog.rowField := by
    funext type
    rw [rowField.eq_def, rowField.eq_def, h.zero]
  funext shape
  rw [Catalog.newRow, Catalog.newRow, hfield]

theorem filler : catalog'.filler = catalog.filler := by
  funext element
  rw [Catalog.filler, Catalog.filler, h.zero]

/-! ### Texts -/

theorem ofLeaf : catalog'.ofLeaf = catalog.ofLeaf := by
  funext type json
  rw [Catalog.ofLeaf.eq_def, Catalog.ofLeaf.eq_def, h.ofEnumText?]

theorem zeroFields : catalog'.zeroFields = catalog.zeroFields := by
  funext type
  rw [Catalog.zeroFields, Catalog.zeroFields, h.zero]

end Leaves

mutual

theorem ofJson (h : catalog.Agrees catalog') : ∀ (json : Json) (type : ResolvedType),
    Catalog.ofJson catalog' json type = Catalog.ofJson catalog json type
  | .null, type => by rw [Catalog.ofJson, Catalog.ofJson]
  | .bool b, type => by rw [Catalog.ofJson, Catalog.ofJson, h.ofLeaf]
  | .int n, type => by rw [Catalog.ofJson, Catalog.ofJson, h.ofLeaf]
  | .double x, type => by rw [Catalog.ofJson, Catalog.ofJson, h.ofLeaf]
  | .str s, type => by rw [Catalog.ofJson, Catalog.ofJson, h.ofLeaf]
  | .arr items, type => by
    rw [Catalog.ofJson, Catalog.ofJson]
    simp only [ofItems h items]
  | .obj members, type => by
    rw [Catalog.ofJson, Catalog.ofJson]
    simp only [h.record?, h.zeroFields, ofMembers h members]

theorem ofItems (h : catalog.Agrees catalog') : ∀ (items : List Json) (element : ResolvedType),
    Catalog.ofItems catalog' items element = Catalog.ofItems catalog items element
  | [], element => by rw [Catalog.ofItems, Catalog.ofItems]
  | item :: items, element => by
    rw [Catalog.ofItems, Catalog.ofItems, ofJson h item, ofItems h items]

theorem ofMembers (h : catalog.Agrees catalog') : ∀ (members : List (String × Json))
    (unknown : Mismatch) (shape : Shape) (fields : List (String × Value)),
    Catalog.ofMembers catalog' unknown shape members fields
      = Catalog.ofMembers catalog unknown shape members fields
  | [], unknown, shape, fields => by rw [Catalog.ofMembers, Catalog.ofMembers]
  | (name, item) :: members, unknown, shape, fields => by
    rw [Catalog.ofMembers, Catalog.ofMembers, h.field?]
    cases catalog.field? shape name with
    | none => rfl
    | some field => simp only [ofJson h item, ofMembers h members]

end

section Rows

variable (h : catalog.Agrees catalog')

include h

theorem ofText : catalog'.ofText = catalog.ofText := by
  funext type text
  simp only [Catalog.ofText, h.ofEnumText?, h.ofJson]

/-! ### Rows and constants -/

theorem writeAt : catalog'.writeAt = catalog.writeAt := by
  have hopened : catalog'.opened = catalog.opened := by
    funext type rest slot
    rw [opened, opened, h.zero]
  funext steps value
  induction steps with
  | nil => rfl
  | cons step steps ih =>
    funext target
    cases step with
    | field name type => simp only [Catalog.writeAt, ih, hopened]
    | index i type => simp only [Catalog.writeAt, ih, hopened, h.filler]

theorem readRow : catalog'.readRow = catalog.readRow := by
  have hcell : catalog'.writeCell = catalog.writeCell := by
    funext view row value plan
    rw [writeCell, writeCell, h.ofText, h.writeAt]
  funext view entity plans row
  rw [Catalog.readRow, Catalog.readRow, hcell, h.newRow]

theorem readRows : catalog'.readRows = catalog.readRows := by
  funext view entity plans keys rows
  induction rows with
  | nil => rfl
  | cons row rows ih =>
    funext seen
    rw [Catalog.readRows, Catalog.readRows, h.readRow, ih]

theorem readConstants : catalog'.readConstants = catalog.readConstants := by
  have hvalue : catalog'.constantValue = catalog.constantValue := by
    funext field resolved
    rw [constantValue, constantValue, h.ofText]
  funext fields
  rw [Catalog.readConstants, Catalog.readConstants, hvalue, h.constants]

end Rows
end Catalog.Agrees

/-! ### Paths -/

section Paths

variable {catalog catalog' : Catalog} (h : catalog.Agrees catalog')

include h

theorem Step.ofSegments_agrees (entity : Shape) :
    ∀ (segments : List String) (current : Option ResolvedType),
      ofSegments catalog' entity current segments = ofSegments catalog entity current segments := by
  -- a segment asks the catalog for a shape and for a field, and for nothing else
  have hshape : shapeAt catalog' = shapeAt catalog := by
    funext entity segment current
    rw [shapeAt.eq_def, shapeAt.eq_def, h.record?]
  have hsegment : ofSegment catalog' = ofSegment catalog := by
    funext entity current segment
    rw [ofSegment, ofSegment, hshape, h.field?]
  intro segments
  induction segments with
  | nil => intro current; rfl
  | cons segment segments ih =>
    intro current
    rw [ofSegments, ofSegments, hsegment]
    simp only [ih]

theorem Plan.ofRow_agrees (dialect : Dialect) (entity : Shape) (view : View) (pathRow : Nat) :
    ofRow dialect catalog' entity view pathRow = ofRow dialect catalog entity view pathRow := by
  have hpath : ofPath catalog' entity = ofPath catalog entity := by
    funext col path
    rw [ofPath, ofPath, Step.ofSegments_agrees h]
  have hcolumn : ofColumn dialect catalog' entity view pathRow
      = ofColumn dialect catalog entity view pathRow := by
    funext col
    rw [ofColumn, ofColumn, hpath]
  rw [ofRow, ofRow, hcolumn]

/-- **The data of a sheet is read alike.** -/
theorem SheetValues.read_agrees (dialect : Dialect) (schema : Schema) (view : View) :
    read dialect schema catalog' view = read dialect schema catalog view := by
  have hrows : readDesignRows dialect catalog' view = readDesignRows dialect catalog view := by
    funext block design entity
    simp only [readDesignRows, Plan.ofRow_agrees h, h.naming, h.readRows]
  rw [read, read, hrows, h.entity, h.readConstants]

end Paths

/-! ### Documents -/

namespace Value

variable {catalog catalog' : Catalog}

mutual

theorem typed_agrees (h : catalog.Agrees catalog') : ∀ (value : Value) (type : ResolvedType),
    typed catalog' value type = typed catalog value type
  | .null, type => by rw [typed, typed]
  | .list items, type => by
    rw [typed, typed]
    simp only [typedList_agrees h items]
  | .record fields, type => by
    rw [typed, typed]
    simp only [h.record?, writers_agrees h fields]
  | .bool _, _ | .int _, _ | .uint _, _ | .float _, _ | .str _, _ | .enum _, _ => by
    rw [typed, typed]

theorem typedList_agrees (h : catalog.Agrees catalog') : ∀ (items : List Value)
    (element : ResolvedType),
    typedList catalog' items element = typedList catalog items element
  | [], _ => by rw [typedList, typedList]
  | item :: items, element => by
    rw [typedList, typedList, typed_agrees h item, typedList_agrees h items]

theorem writers_agrees (h : catalog.Agrees catalog') : ∀ fields : List (String × Value),
    writers catalog' fields = writers catalog fields
  | [] => by rw [writers, writers]
  | (name, value) :: fields => by
    rw [writers, writers, writers_agrees h fields, funext (typed_agrees h value)]

end

theorem shaped_agrees (h : catalog.Agrees catalog') : shaped catalog' = shaped catalog := by
  funext shape value
  cases value with
  | record fields => rw [shaped, shaped, writers_agrees h]
  | _ => rfl

end Value

/-- **The document of a sheet is written alike.** -/
theorem SheetValues.document?_agrees {catalog catalog' : Catalog} (h : catalog.Agrees catalog')
    (data : SheetValues) : data.document? catalog' = data.document? catalog := by
  have hconstants : data.constantsJson? catalog' = data.constantsJson? catalog := by
    rw [constantsJson?, constantsJson?, Value.shaped_agrees h, h.constants]
  have hrows : data.rowsJson? catalog' = data.rowsJson? catalog := by
    rw [rowsJson?, rowsJson?, Value.shaped_agrees h, h.entity]
  rw [document?, document?, hconstants, hrows]

/-! ### Code -/

/-- **The code of a sheet is generated alike.** -/
theorem CSharp.sheetFile_agrees {catalog catalog' : Catalog} (h : catalog.Agrees catalog')
    (schema : Schema) (platforms : List Platform) :
    sheetFile schema catalog' platforms = sheetFile schema catalog platforms := by
  -- each part of the file asks the catalog only for what both have alike
  have hrecords : recordTypes schema catalog' = recordTypes schema catalog := by
    have hrecord : recordOf catalog' = recordOf catalog := by
      funext block body
      rw [recordOf, recordOf, h.naming, h.record?]
    funext isGlobal
    rw [recordTypes, recordTypes, hrecord]
  have hkey : keyText catalog' = keyText catalog := by
    funext design
    rw [keyText, keyText, h.entity, h.naming]
  have hrows : rowMembers catalog' = rowMembers catalog := by
    funext design
    rw [rowMembers, rowMembers, hkey, h.entity, h.naming]
  have hentity : entityOf schema catalog' = entityOf schema catalog := by
    funext names
    rw [entityOf, entityOf, entityBases, entityBases, hkey, hrows, hrecords, h.naming, h.constants]
  rw [sheetFile, sheetFile, unitOf, unitOf, hrecords, hentity, h.naming]

end TypedSheets

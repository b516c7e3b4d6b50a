import TypedSheets.Compiler
import TypedSheets.Proofs.ClosedCatalog

/-!
# Where undefined types are reported

A catalog that fails over an undefined type points at the cell where the type is written.  The
error is charged to the sheet that is compiled, but the cell need not be one of it: the sheet
takes over global records of other sheets, and their fields are resolved in its own scope, each
at the cell of the sheet that declares it.  A record that names a type of its own sheet which
is not global means nothing elsewhere, and is reported there under a cell of its home.

So the cell belongs to the sheet itself as long as what it takes over makes sense in it; and if
its own types all do, the cell is always one of another sheet.

## Main definitions

* `Schema.TakesOver` — the types that a sheet takes over from another one, with their cells.
* `Scope.Accepts` — that a type makes sense in a scope.

## Main results

* `Catalog.typeAt_or_takesOver` — a type of a record in scope is written by the sheet itself or
  taken over.
* `Catalog.undefinedType_origin` — **which cell an undefined type is reported at.**
* `Harbor.reported_elsewhere` — a sheet whose error points into another one.
-/

namespace TypedSheets

namespace Schema

/-- The types that a sheet takes over from another one, each with its cell there: those of a
global record under a name that the sheet declares nothing under itself. -/
structure TakesOver (schema : Schema) (others : List Schema) (owner : Schema) (type : WrittenType)
    (cell : Cell) : Prop where
  mem : owner ∈ others
  sheet_ne : owner.sheet ≠ schema.sheet
  field : ∃ entry ∈ owner.records, entry.2.isGlobal = true ∧
    schema.sees? others entry.1.label = some (.record entry.2) ∧
    (∀ own ∈ schema.declarations, own.1.label ≠ entry.1.label) ∧
    ∃ field ∈ entry.2.fields, field.type = type ∧ field.typeCell = cell

/-- What is taken over is written by its owner. -/
theorem TakesOver.typeAt {schema owner : Schema} {others : List Schema} {type : WrittenType}
    {cell : Cell} (h : schema.TakesOver others owner type cell) : owner.TypeAt type cell := by
  obtain ⟨entry, hentry, -, -, -, field, hfield, rfl, rfl⟩ := h.field
  exact .record hentry hfield

/-- A record among the declarations is one of the records. -/
theorem mem_records_of_declarations {schema : Schema} {block : Block} {record : RecordDecl}
    (h : (block, Declaration.record record) ∈ schema.declarations) :
    (block, record) ∈ schema.records := by
  rcases List.mem_append.mp h with henum | hrecord
  · obtain ⟨entry, -, heq⟩ := List.mem_map.mp henum
    cases heq
  · obtain ⟨entry, hentry, heq⟩ := List.mem_map.mp hrecord
    cases heq
    exact hentry

end Schema

/-- That a type makes sense in a scope: it is resolved there, wherever it is written. -/
def Scope.Accepts (scope : Scope) (type : WrittenType) : Prop :=
  ∀ cell, ∃ resolved, scope.resolve cell type = .ok resolved

theorem Scope.Accepts.ne_error {scope : Scope} {type : WrittenType} (h : scope.Accepts type)
    (cell : Cell) (fault : Fault) : scope.resolve cell type ≠ .error fault := by
  obtain ⟨resolved, hresolved⟩ := h cell
  rw [hresolved]
  rintro ⟨⟩

/-- A fault of a catalog is charged to the sheet that is compiled. -/
theorem Settings.compileSheet_of_catalog_error {settings : Settings} {schema : Schema}
    {others : List Schema} {fault : Fault} {dialect : Dialect}
    (hdialect : settings.dialect = .ok dialect)
    (h : Catalog.ofSchemas schema others settings.names = .error fault) (grid : Grid) :
    settings.compileSheet schema grid others
      = .error (.faulty schema.sheet [fault.diagnostic]) := by
  rw [compileSheet, hdialect, h]
  rfl

namespace Catalog

variable {schema : Schema} {others : List Schema} {naming : NameStyle} {scope : Scope}

/-- A type of a record in scope is written by the sheet itself, or taken over. -/
theorem typeAt_or_takesOver (hscope : Scope.ofSchemas schema others naming = .ok scope)
    {type : WrittenType} {cell : Cell} (h : RecordTypeAt scope naming schema type cell) :
    schema.TypeAt type cell ∨ ∃ owner, schema.TakesOver others owner type cell := by
  obtain ⟨name, record, hrecord, field, hfield, rfl, rfl⟩ := h.field
  have hsees := (Scope.record?_eq_some_iff hscope).mp hrecord
  rcases Scope.sees?_cases hsees with
    ⟨block, hblock, -⟩ | ⟨owner, hmem, hsheet, hglobal, ⟨block, hblock, rfl⟩, hown⟩
  · exact Or.inl (.record (Schema.mem_records_of_declarations hblock) hfield)
  · exact Or.inr ⟨owner, hmem, hsheet, (block, record),
      Schema.mem_records_of_declarations hblock, hglobal, hsees, hown, field, hfield, rfl, rfl⟩

/-- **Which cell an undefined type is reported at.**  The one label of the error stands at a type
cell of a field of the sheet itself, or of a record that it takes over, which only happens once
its design and its constants are resolved.  If all that it takes over makes sense in its scope,
the cell is its own; if all its own types do, the cell is one of another sheet, though the error
carries the name of this one. -/
theorem undefinedType_origin {fault : Fault} (h : ofSchemas schema others naming = .error fault)
    (hcode : fault.code? = some .e200) :
    ∃ scope type name cell, Scope.ofSchemas schema others naming = .ok scope ∧
      fault = .undefinedType name cell ∧ fault.labels = [.primary cell "unknown type"] ∧
      type.leaf = .named name ∧ scope.meaning? name = none ∧ schema.Reaches scope type ∧
      (schema.TypeAt type cell ∨
        (∃ entity, entityShape scope naming schema = .ok entity) ∧
        (∃ constants, constantShape scope naming schema = .ok constants) ∧
        ∃ owner, schema.TakesOver others owner type cell) ∧
      ((∀ owner type cell, schema.TakesOver others owner type cell → scope.Accepts type) →
        schema.TypeAt type cell) ∧
      ((∀ type cell, schema.TypeAt type cell → scope.Accepts type) →
        ∃ owner, schema.TakesOver others owner type cell ∧ owner.TypeAt type cell) ∧
      ∀ (settings : Settings) (dialect : Dialect) (grid : Grid), settings.names = naming →
        settings.dialect = .ok dialect → settings.compileSheet schema grid others
          = .error (.faulty schema.sheet [fault.diagnostic]) := by
  obtain ⟨scope, hscope, type, cell, hreaches, hresolve, horigin⟩ :=
    exists_of_ofSchemas_error h hcode
  obtain ⟨name, hname, hmeaning, rfl⟩ := Scope.resolve_eq_error_iff.mp hresolve
  -- records come last: if one of another sheet fails, design and constants have their shapes
  have hplace : schema.TypeAt type cell ∨
      (∃ entity, entityShape scope naming schema = .ok entity) ∧
      (∃ constants, constantShape scope naming schema = .ok constants) ∧
      ∃ owner, schema.TakesOver others owner type cell := by
    rcases horigin with hown | hrecord
    · exact Or.inl hown
    · rcases typeAt_or_takesOver hscope hrecord with hown | htaken
      · exact Or.inl hown
      · exact Or.inr ⟨hrecord.entity, hrecord.constants, htaken⟩
  refine ⟨scope, type, name, cell, hscope, rfl, rfl, hname, hmeaning, hreaches, hplace, ?_, ?_, ?_⟩
  · intro haccepts
    rcases hplace with hown | ⟨-, -, owner, htaken⟩
    · exact hown
    · exact absurd hresolve ((haccepts owner type cell htaken).ne_error cell _)
  · intro haccepts
    rcases hplace with hown | ⟨-, -, owner, htaken⟩
    · exact absurd hresolve ((haccepts type cell hown).ne_error cell _)
    · exact ⟨owner, htaken, htaken.typeAt⟩
  · rintro settings dialect grid rfl hdialect
    exact Settings.compileSheet_of_catalog_error hdialect h grid

end Catalog

/-! ### A sheet that takes over a record -/

namespace Harbor

def naming : NameStyle := ({} : Settings).names

/-- A global record whose only field has a type that is not global. -/
def info : RecordDecl := ⟨true, [⟨"Kind", .named "Kind", false, none, ⟨5, 0⟩, ⟨5, 1⟩⟩]⟩

def infoBlock : Block := ⟨some "Info", ["Global"], none, ⟨3, 0⟩, .record info⟩

def shared : Schema := ⟨"Shared", [
  ⟨some "Kind", [], none, ⟨0, 0⟩, .enum ⟨false, .int, [⟨"A", none, 0, none, ⟨2, 0⟩⟩]⟩⟩,
  infoBlock]⟩

def design : DesignDecl := ⟨[], [
  ⟨"Id", .scalar .int, true, none, false, none, ⟨2, 0⟩, ⟨2, 1⟩⟩,
  ⟨"Info", .named "Info", false, none, false, none, ⟨3, 0⟩, ⟨3, 1⟩⟩]⟩

/-- A sheet with a field of that record, and no type that is undefined itself. -/
def item : Schema := ⟨"Item", [⟨none, [], none, ⟨0, 0⟩, .design design⟩]⟩

theorem ofSchemas_item :
    Catalog.ofSchemas item [shared, item] naming = .error (.undefinedType "Kind" ⟨5, 1⟩) := rfl

/-- Where the types of the sheet stand. -/
theorem typeAt_item {type : WrittenType} {cell : Cell} (h : item.TypeAt type cell) :
    type = .scalar .int ∧ cell = ⟨2, 1⟩ ∨ type = .named "Info" ∧ cell = ⟨3, 1⟩ := by
  cases h with
  | design hdesign hfield =>
    cases hdesign
    simp only [design, List.mem_cons, List.not_mem_nil, or_false] at hfield
    rcases hfield with rfl | rfl
    · exact Or.inl ⟨rfl, rfl⟩
    · exact Or.inr ⟨rfl, rfl⟩
  | constant hconstants _ => cases hconstants
  | record hrecord _ => cases hrecord

/-- The error of the sheet points at a cell of the other sheet, where it has no type of its
own. -/
theorem reported_elsewhere :
    (∃ fault, Catalog.ofSchemas item [shared, item] naming = .error fault ∧
      fault.code? = some .e200 ∧ fault.labels = [.primary ⟨5, 1⟩ "unknown type"]) ∧
    (∀ type, ¬ item.TypeAt type ⟨5, 1⟩) ∧ shared.TypeAt (.named "Kind") ⟨5, 1⟩ ∧
    shared.sheet ≠ item.sheet := by
  refine ⟨⟨_, ofSchemas_item, rfl, rfl⟩, ?_, ?_, by decide⟩
  · intro type htype
    rcases typeAt_item htype with ⟨-, hcell⟩ | ⟨-, hcell⟩
    · cases hcell
    · cases hcell
  · have hinfo : (infoBlock, info) ∈ shared.records := List.mem_singleton.mpr rfl
    exact .record hinfo (List.mem_singleton.mpr rfl)

/-- The type is taken over, and the error is charged to the sheet that takes it over. -/
theorem undefinedType_origin_item :
    Catalog.ofSchemas item [shared, item] naming = .error (.undefinedType "Kind" ⟨5, 1⟩) ∧
    (∃ owner type, item.TakesOver [shared, item] owner type ⟨5, 1⟩) ∧
    ({} : Settings).compileSheet item ⟨#[]⟩ [shared, item]
      = .error (.faulty "Item" [(Fault.undefinedType "Kind" ⟨5, 1⟩).diagnostic]) := by
  obtain ⟨scope, type, name, cell, hscope, hfault, -, -, -, -, -, -, htaken, hcompile⟩ :=
    Catalog.undefinedType_origin ofSchemas_item rfl
  cases hfault
  cases hscope
  refine ⟨ofSchemas_item, ?_, hcompile {} default ⟨#[]⟩ rfl rfl⟩
  obtain ⟨owner, howner, -⟩ := htaken fun type cell htype => by
    rcases typeAt_item htype with ⟨rfl, -⟩ | ⟨rfl, -⟩
    · exact fun cell => ⟨_, rfl⟩
    · exact fun cell => ⟨_, rfl⟩
  exact ⟨owner, type, howner⟩

end Harbor
end TypedSheets

import TypedSheets.Proofs.BlockDiscovery
import TypedSheets.Proofs.Scope

/-!
# What declarations are read

Whatever a sheet declares has passed the checks of its reader: an enumeration has an integer
type, and a field of a record is optional only if its type is nullable.  So has every
declaration that a sheet sees, its own or one of another sheet.

## Main definitions

* `Schema.IsRead` — that a schema was read from a sheet.
* `Declaration.Checked` — what the readers check.

## Main results

* `Table.forall_mem_readRows` — what every row is checked for holds of all elements.
* `Schema.IsRead.checked`, `Schema.checked_of_sees?` — **declarations are checked.**
-/

namespace TypedSheets

/-! ### Elements -/

theorem Table.view_of_ofView {dialect : Dialect} {view : View} {columns : List Column}
    {table : Table} (h : Table.ofView dialect view columns = .ok table) : table.view = view := by
  rw [ofView] at h
  obtain ⟨_, -, h⟩ := bind_eq_ok.mp h
  split at h
  · cases h
  · cases h
    rfl

/-- **What every row is checked for holds of all elements.** -/
theorem Table.forall_mem_readRows {σ α : Type} {table : Table}
    {step : σ → Nat → String → Except Fault (σ × α)} {good : α → Prop}
    (hstep : ∀ state row name next element,
      step state row name = .ok (next, element) → good element) :
    ∀ (rows : List Nat) {seen : List (String × Cell)} {state : σ} {elements : List α},
      table.readRows step rows seen state = .ok elements → ∀ element ∈ elements, good element := by
  intro rows
  induction rows with
  | nil =>
    intro seen state elements h
    cases h
    simp
  | cons row rows ih =>
    intro seen state elements h
    rw [readRows] at h
    obtain ⟨_, -, h⟩ := bind_eq_ok.mp h
    obtain ⟨name, -, h⟩ := bind_eq_ok.mp h
    split at h
    · cases h
    · -- whatever the state before the row, the step checks the element
      obtain ⟨⟨next, element⟩, helement, h⟩ := bind_eq_ok.mp h
      obtain ⟨rest, hrest, h⟩ := bind_eq_ok.mp h
      cases h
      exact List.forall_mem_cons.mpr ⟨hstep _ _ _ _ _ helement, ih hrest⟩

/-- Where nothing is passed from row to row, a step is one reading of a row. -/
theorem Table.of_step {α : Type} {read : Nat → String → Except Fault α}
    {p : Nat → String → α → Prop}
    (hread : ∀ row name element, read row name = .ok element → p row name element) :
    ∀ (_ : Unit) (row : Nat) (name : String) (next : Unit) (element : α),
      ((read row name).map fun element => ((), element)) = .ok (next, element) →
        p row name element := by
  intro _ row name _ element hstep
  obtain ⟨_, helement, heq⟩ := map_eq_ok.mp hstep
  cases heq
  exact hread row name _ helement

theorem Table.forall_mem_readAll {α : Type} {dialect : Dialect} {table : Table}
    {read : Nat → String → Except Fault α} {good : α → Prop}
    (hread : ∀ row name element, read row name = .ok element → good element) {elements : List α}
    (h : table.readAll dialect read = .ok elements) : ∀ element ∈ elements, good element :=
  forall_mem_readRows (of_step (p := fun _ _ => good) hread) _ h

/-- Only what is nullable is optional. -/
theorem Table.isNullable_of_optional {table : Table} {row : Nat} {type : WrittenType}
    (h : table.optional row type = .ok true) : type.isNullable = true := by
  rw [optional] at h
  obtain ⟨flag, -, h⟩ := bind_eq_ok.mp h
  split at h
  · cases h
  · next hcond =>
    cases h
    simpa using hcond

/-! ### Declarations -/

/-- What the readers of declarations check: the type of an enumeration, and which fields of
a record are optional. -/
def Declaration.Checked : Declaration → Prop
  | .enum block => block.backing.isInteger = true
  | .record block => ∀ field ∈ block.fields, field.optional = true → field.type.isNullable = true

theorem isInteger_enumScalar (dialect : Dialect) (options : List String) :
    (enumScalar dialect options).isInteger = true := by
  rw [enumScalar]
  cases hfind : (options.filterMap Scalar.ofKeyword?).find? Scalar.isInteger with
  | none => exact dialect.isInteger_enumBacking
  | some s => exact List.find?_some hfind

theorem EnumDecl.checked_of_read {dialect : Dialect} {view : View} {options : List String}
    {block : EnumDecl} (h : EnumDecl.read dialect view options = .ok block) :
    (Declaration.enum block).Checked := by
  rw [EnumDecl.read] at h
  obtain ⟨table, -, h⟩ := bind_eq_ok.mp h
  obtain ⟨members, -, h⟩ := bind_eq_ok.mp h
  cases h
  exact isInteger_enumScalar dialect options

theorem RecordDecl.checked_of_read {dialect : Dialect} {view : View} {options : List String}
    {block : RecordDecl} (h : RecordDecl.read dialect view options = .ok block) :
    (Declaration.record block).Checked := by
  rw [RecordDecl.read] at h
  obtain ⟨table, -, h⟩ := bind_eq_ok.mp h
  obtain ⟨fields, hfields, h⟩ := bind_eq_ok.mp h
  cases h
  refine Table.forall_mem_readAll ?_ hfields
  intro row name field hfield hoptional
  rw [FieldDecl.read] at hfield
  obtain ⟨type, -, hfield⟩ := bind_eq_ok.mp hfield
  obtain ⟨optional, hread, hfield⟩ := bind_eq_ok.mp hfield
  cases hfield
  cases hoptional
  exact Table.isNullable_of_optional hread

/-! ### Schemas -/

/-- A declaration as the content of a block. -/
def Declaration.content : Declaration → BlockContent
  | .enum block => .enum block
  | .record block => .record block

/-- A declaration that was read is checked. -/
theorem BlockContent.checked_of_read {dialect : Dialect} {kind : BlockKind} {view : View}
    {options : List String} {body : BlockContent} {declaration : Declaration}
    (h : BlockContent.read dialect kind view options = .ok body)
    (hbody : body = declaration.content) : declaration.Checked := by
  rw [BlockContent.read.eq_def] at h
  cases kind with
  | «enum» =>
    obtain ⟨block, hblock, rfl⟩ := map_eq_ok.mp h
    cases declaration with
    | «enum» _ => cases hbody; exact EnumDecl.checked_of_read hblock
    | record _ => cases hbody
  | record =>
    obtain ⟨block, hblock, rfl⟩ := map_eq_ok.mp h
    cases declaration with
    | «enum» _ => cases hbody
    | record _ => cases hbody; exact RecordDecl.checked_of_read hblock
  | interface =>
    cases h
    cases declaration <;> cases hbody
  | _ =>
    obtain ⟨_, -, rfl⟩ := map_eq_ok.mp h
    cases declaration <;> cases hbody

namespace Schema

/-- That a schema was read from a sheet. -/
def IsRead (schema : Schema) : Prop :=
  ∃ dialect view, Schema.read dialect schema.sheet view = .ok schema

/-- The content of every block of a sheet is read as its kind is. -/
theorem IsRead.exists_read {schema : Schema} (h : schema.IsRead) {block : Block}
    (hblock : block ∈ schema.blocks) :
    ∃ dialect kind view options, BlockContent.read dialect kind view options = .ok block.body := by
  obtain ⟨dialect, view, h⟩ := h
  obtain ⟨-, hfound, -⟩ := Schema.foundAt_of_read h
  obtain ⟨extent, -, hat⟩ := exists_left_of_forall₂ hfound hblock
  have hread := hat.read
  rw [Block.read] at hread
  obtain ⟨_, -, hread⟩ := bind_eq_ok.mp hread
  obtain ⟨body, hbody, hread⟩ := bind_eq_ok.mp hread
  cases hread
  exact ⟨_, _, _, _, hbody⟩

/-- Declarations are the content of blocks. -/
theorem mem_of_declarations {schema : Schema} {block : Block} {declaration : Declaration}
    (h : (block, declaration) ∈ schema.declarations) :
    block ∈ schema.blocks ∧ block.body = declaration.content := by
  rcases List.mem_append.mp h with henum | hrecord
  · obtain ⟨⟨_, body⟩, hentry, heq⟩ := List.mem_map.mp henum
    cases heq
    obtain ⟨found, hfound, hbody⟩ := List.mem_filterMap.mp hentry
    split at hbody
    · next heq => cases hbody; exact ⟨hfound, heq⟩
    · cases hbody
  · obtain ⟨⟨_, body⟩, hentry, heq⟩ := List.mem_map.mp hrecord
    cases heq
    obtain ⟨found, hfound, hbody⟩ := List.mem_filterMap.mp hentry
    split at hbody
    · next heq => cases hbody; exact ⟨hfound, heq⟩
    · cases hbody

/-- **The declarations of a sheet are checked.** -/
theorem IsRead.checked {schema : Schema} (h : schema.IsRead) {block : Block}
    {declaration : Declaration} (hmem : (block, declaration) ∈ schema.declarations) :
    declaration.Checked := by
  obtain ⟨hblock, hcontent⟩ := mem_of_declarations hmem
  obtain ⟨dialect, kind, view, options, hread⟩ := h.exists_read hblock
  exact BlockContent.checked_of_read hread hcontent

/-- What a sheet sees is declared somewhere. -/
theorem exists_of_sees? {schema : Schema} {others : List Schema} {name : String}
    {declaration : Declaration} (h : schema.sees? others name = some declaration) :
    ∃ home ∈ schema :: others, ∃ block, (block, declaration) ∈ home.declarations := by
  rcases Scope.sees?_cases h with ⟨block, hblock, -⟩ | ⟨owner, howner, -, -, ⟨block, hblock, -⟩, -⟩
  · exact ⟨schema, by simp, block, hblock⟩
  · exact ⟨owner, List.mem_cons_of_mem _ howner, block, hblock⟩

/-- **What a sheet sees is checked**, whichever sheet declares it. -/
theorem checked_of_sees? {schema : Schema} {others : List Schema}
    (hread : ∀ home ∈ schema :: others, home.IsRead) {name : String} {declaration : Declaration}
    (h : schema.sees? others name = some declaration) : declaration.Checked := by
  obtain ⟨home, hhome, block, hblock⟩ := exists_of_sees? h
  exact (hread home hhome).checked hblock

end Schema
end TypedSheets

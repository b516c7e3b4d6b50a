import Mathlib.Data.List.DropRight
import TypedSheets.Proofs.NestedViews
import TypedSheets.Proofs.SchemaReading
import TypedSheets.Proofs.TypeGrammar

/-!
# What every schema that was read is like

The later stages take a schema as it is: they look up elements by name, trust the range of
a number and the form of a type.  None of this is checked again, and each kind of block has
a reader of its own; so here are the promises in one place, for all kinds.

Names and rows are the same argument for all readers, since all of them go through the rows
of a table in order and remember the names so far.  What is left for each kind is what it
makes of one row.

## Main definitions

* `View.Filled` — no cell of a view holds blanks only.
* `WrittenType.isNormal` — types without `??`, whose names are identifiers and no keywords.
* `Orderly` — elements with proper names of their own, from one row after another.
* `Block.WellFormed` — all promises about a block.

## Main results

* `WrittenType.isNormal_of_read?` — type cells are read to normal forms.
* `Table.readRows_named` — names and rows of the elements that are read.
* `BlockContent.wellFormed_of_read` — **each kind of block.**
* `Schema.blocks_wellFormed` — **every block of a sheet.**
-/

namespace TypedSheets

/-! ### Trimmed texts -/

namespace Text

theorem trimChars_eq_rdropWhile (cs : List Char) :
    trimChars cs = (cs.dropWhile isBlankChar).rdropWhile isBlankChar := rfl

/-- Trimming twice is trimming once. -/
theorem trimChars_trimChars (cs : List Char) : trimChars (trimChars cs) = trimChars cs := by
  have hhead : (trimChars cs).dropWhile isBlankChar = trimChars cs := by
    rw [List.dropWhile_eq_self_iff]
    intro hpos
    -- what is cut off at the end leaves the first character in place
    have hinit : trimChars cs <+: cs.dropWhile isBlankChar := List.rdropWhile_prefix _ _
    rw [hinit.getElem hpos]
    exact List.dropWhile_get_zero_not _ _ _
  rw [trimChars_eq_rdropWhile (trimChars cs), hhead, trimChars_eq_rdropWhile,
    List.rdropWhile_idempotent]

theorem trim_trim (text : String) : trim (trim text) = trim text := by
  rw [trim, trim, String.toList_ofList, trimChars_trimChars]

/-- Only blanks are trimmed to nothing. -/
theorem trim_ne_empty {text : String} (h : isBlank text = false) : trim text ≠ "" := by
  intro hempty
  have hchars : trimChars text.toList = [] := by
    simpa [trim] using congrArg String.toList hempty
  have hblank : ∀ c ∈ text.toList, isBlankChar c = true := by
    rw [← List.dropWhile_eq_nil_iff]
    rw [trimChars_eq_rdropWhile, List.rdropWhile_eq_nil_iff] at hchars
    by_contra hne
    have hpos := List.length_pos_iff.mpr hne
    exact List.dropWhile_get_zero_not _ _ hpos (hchars _ (List.getElem_mem hpos))
  rw [isBlank, List.all_eq_true.mpr hblank] at h
  cases h

end Text

/-! ### Filled cells -/

/-- No cell of a view holds blanks only. -/
def View.Filled (view : View) : Prop :=
  ∀ row col text, view.text? row col = some text → Text.isBlank text = false

/-- In a grid of texts, blank ones are no cells. -/
theorem Grid.isBlank_of_text?_ofRows {rows : List (List String)} {row col : Nat} {text : String}
    (h : (Grid.ofRows rows).text? row col = some text) : Text.isBlank text = false := by
  obtain ⟨texts, -, -, hblank⟩ := Grid.text?_ofRows_eq_some_iff.mp h
  exact hblank

theorem View.filled_of_ofRows {view : View} {rows : List (List String)}
    (h : view.grid = Grid.ofRows rows) : view.Filled := by
  intro row col text htext
  rw [View.text?, h] at htext
  split at htext
  · exact Grid.isBlank_of_text?_ofRows htext
  · cases htext

/-! ### Types -/

/-- Whether a type is in normal form: no `?` follows another, and names are identifiers but
no keywords. -/
def WrittenType.isNormal : WrittenType → Bool
  | scalar _ => true
  | named name => isIdent name && (Scalar.ofKeyword? name).isNone
  | list element => element.isNormal
  | nullable inner => !inner.isNullable && inner.isNormal

namespace WrittenType

mutual

/-- What the grammar derives is in normal form. -/
theorem TypeText.isNormal {cs : List Char} {type : WrittenType} :
    TypeText cs type → type.isNormal = true
  | .plain hatom => hatom.isNormal.1
  | .nullable hatom _ => by
    obtain ⟨hnormal, hnullable⟩ := hatom.isNormal
    simp [WrittenType.isNormal, hnormal, hnullable]

/-- The same for atoms, which are not nullable. -/
theorem AtomText.isNormal {cs : List Char} {type : WrittenType} :
    AtomText cs type → type.isNormal = true ∧ type.isNullable = false
  | .list _ _ hbody _ => ⟨hbody.isNormal, rfl⟩
  | .keyword _ _ => ⟨rfl, rfl⟩
  | .name _ hname hkeyword => by
    have hnone := Scalar.ofKeyword?_eq_none_iff.mpr hkeyword
    simp [WrittenType.isNormal, isNullable, isIdent_iff.mpr hname, hnone]

end

/-- **Type cells are read to normal forms.** -/
theorem isNormal_of_read? {text : String} {type : WrittenType} (h : read? text = some type) :
    type.isNormal = true := by
  obtain ⟨body, tail, -, hbody, -⟩ := read?_eq_some_iff_typeText.mp h
  exact hbody.isNormal

end WrittenType

/-! ### Elements and their rows -/

/-- Elements by name and first cell, below a header cell: their names are trimmed texts, no
two of them the same, and they come from one row after another, from the second row below
the header on. -/
structure Orderly (header : Cell) (elements : List (String × Cell)) : Prop where
  names : ∀ element ∈ elements, element.1 ≠ "" ∧ Text.trim element.1 = element.1
  distinct : (elements.map Prod.fst).Nodup
  below : ∀ element ∈ elements, header.row + 2 ≤ element.2.row
  ordered : elements.Pairwise fun first later => first.2.row < later.2.row

theorem orderly_nil (header : Cell) : Orderly header [] := by
  constructor <;> simp

namespace Table

variable {α σ : Type} {table : Table}

/-- Element rows come one after another, below the row of column headers. -/
theorem elementRows_spec (dialect : Dialect) (table : Table) :
    (∀ row ∈ table.elementRows dialect, 2 ≤ row) ∧
      (table.elementRows dialect).Pairwise (· < ·) := by
  constructor
  · intro row hrow
    exact (List.mem_range'_1.mp (List.mem_filter.mp hrow).1).1
  · exact (List.pairwise_lt_range' 1 Nat.one_pos).filter _

/-- **Names and rows of the elements that are read**: there is one for each row, named by
the text in its name column, and no name occurs twice or was there before.  The induction
is over the rows; the names seen so far are those before it. -/
theorem readRows_named {step : σ → Nat → String → Except Fault (σ × α)} {nameOf : α → String}
    {originOf : α → Cell}
    (hstep : ∀ state row name next element, step state row name = .ok (next, element) →
      nameOf element = name ∧ originOf element = table.origin row) :
    ∀ (rows : List Nat) {seen : List (String × Cell)} {state : σ} {elements : List α},
      table.readRows step rows seen state = .ok elements →
        elements.map originOf = rows.map table.origin ∧
        (∀ element ∈ elements, nameOf element ∉ seen.map Prod.fst ∧
          ∃ row, table.text? row "Name" = some (nameOf element)) ∧
        (elements.map nameOf).Nodup := by
  intro rows
  induction rows with
  | nil =>
    intro seen state elements h
    cases h
    simp
  | cons row rows ih =>
    intro seen state elements h
    rw [readRows] at h
    obtain ⟨_, -, h⟩ := bind_eq_ok.mp h
    obtain ⟨name, hname, h⟩ := bind_eq_ok.mp h
    have htext : table.text? row "Name" = some name := by
      rw [required] at hname
      split at hname
      · next htext => rw [htext, Except.ok.inj hname]
      · cases hname
    split at h
    · cases h
    · next hnew =>
      obtain ⟨⟨next, element⟩, helement, h⟩ := bind_eq_ok.mp h
      obtain ⟨rest, hrest, h⟩ := bind_eq_ok.mp h
      cases h
      obtain ⟨rfl, horigin⟩ := hstep _ _ _ _ _ helement
      have hnew := OrderedMap.get?_eq_none_iff.mp hnew
      obtain ⟨horigins, hnames, hnodup⟩ := ih hrest
      -- the names seen by the rows after it are those before and its own
      rw [OrderedMap.insert_eq_append _ hnew, List.map_append] at hnames
      refine ⟨by rw [List.map_cons, List.map_cons, horigin, horigins], ?_, ?_⟩
      · refine List.forall_mem_cons.mpr ⟨⟨hnew, row, htext⟩, ?_⟩
        intro other hother
        obtain ⟨hfresh, hnamed⟩ := hnames other hother
        exact ⟨fun hseen => hfresh (List.mem_append_left _ hseen), hnamed⟩
      · refine List.nodup_cons.mpr ⟨?_, hnodup⟩
        intro hagain
        obtain ⟨other, hother, heq⟩ := List.mem_map.mp hagain
        exact (hnames other hother).1 (List.mem_append_right _ (by simp [heq]))

/-- The elements of a table are orderly. -/
theorem orderly_of_readRows {step : σ → Nat → String → Except Fault (σ × α)}
    {nameOf : α → String} {originOf : α → Cell} {dialect : Dialect} {state : σ}
    {elements : List α} (hfilled : table.view.Filled)
    (hstep : ∀ state row name next element, step state row name = .ok (next, element) →
      nameOf element = name ∧ originOf element = table.origin row)
    (h : table.readRows step (table.elementRows dialect) [] state = .ok elements) :
    Orderly (table.view.place 0 0)
      (elements.map fun element => (nameOf element, originOf element)) := by
  obtain ⟨horigins, hnames, hnodup⟩ := readRows_named hstep _ h
  obtain ⟨hbelow, hordered⟩ := elementRows_spec dialect table
  -- elements stand where their rows do
  have hrows : (elements.map fun element => (originOf element).row)
      = (table.elementRows dialect).map fun row => table.view.top + row := by
    have hrow := congrArg (List.map Cell.row) horigins
    rwa [List.map_map, List.map_map] at hrow
  constructor
  case names =>
    intro element helement
    obtain ⟨read, hread, rfl⟩ := List.mem_map.mp helement
    obtain ⟨-, row, htext⟩ := hnames read hread
    rw [text?, raw?] at htext
    obtain ⟨text, htext, hname⟩ := Option.map_eq_some_iff.mp htext
    obtain ⟨col, -, htext⟩ := Option.bind_eq_some_iff.mp htext
    -- cells that are filled are not blank, so trimming leaves something
    rw [← hname]
    exact ⟨Text.trim_ne_empty (hfilled _ _ _ htext), Text.trim_trim text⟩
  case distinct =>
    rw [List.map_map]
    exact hnodup
  case below =>
    intro element helement
    obtain ⟨read, hread, rfl⟩ := List.mem_map.mp helement
    have hrow : (originOf read).row ∈ elements.map fun element => (originOf element).row :=
      List.mem_map.mpr ⟨read, hread, rfl⟩
    rw [hrows] at hrow
    obtain ⟨row, hmem, heq⟩ := List.mem_map.mp hrow
    have hle := hbelow row hmem
    show table.view.top + 0 + 2 ≤ (originOf read).row
    omega
  case ordered =>
    have hsorted : (elements.map fun element => (originOf element).row).Pairwise (· < ·) := by
      rw [hrows, List.pairwise_map]
      exact hordered.imp fun hlt => Nat.add_lt_add_left hlt _
    rw [List.pairwise_map] at hsorted ⊢
    exact hsorted

/-- The same for kinds that pass nothing from row to row. -/
theorem orderly_of_readAll {read : Nat → String → Except Fault α} {nameOf : α → String}
    {originOf : α → Cell} {dialect : Dialect} {elements : List α} (hfilled : table.view.Filled)
    (hread : ∀ row name element, read row name = .ok element →
      nameOf element = name ∧ originOf element = table.origin row)
    (h : table.readAll dialect read = .ok elements) :
    Orderly (table.view.place 0 0)
      (elements.map fun element => (nameOf element, originOf element)) :=
  orderly_of_readRows hfilled (of_step hread) h

theorem isNormal_of_typeOf {row : Nat} {type : WrittenType} (h : table.typeOf row = .ok type) :
    type.isNormal = true := by
  rw [typeOf] at h
  obtain ⟨text, -, h⟩ := bind_eq_ok.mp h
  split at h
  · next hread =>
    cases h
    exact WrittenType.isNormal_of_read? hread
  · cases h

end Table

/-! ### Blocks -/

namespace BlockContent

/-- The elements of a declaration, by name and first cell. -/
def elements : BlockContent → List (String × Cell)
  | description _ | interface => []
  | enum block => block.members.map fun member => (member.name, member.origin)
  | record block => block.fields.map fun field => (field.name, field.origin)
  | constant fields => fields.map fun field => (field.name, field.origin)
  | design block => block.fields.map fun field => (field.name, field.origin)

/-- The types that a declaration holds. -/
def types : BlockContent → List WrittenType
  | description _ | interface | enum _ => []
  | record block => block.fields.map FieldDecl.type
  | constant fields => fields.map ConstantDecl.type
  | design block => block.fields.map EntityField.type

/-- The types of the fields that are marked optional. -/
def optionalTypes : BlockContent → List WrittenType
  | description _ | interface | enum _ | constant _ => []
  | record block => (block.fields.filter FieldDecl.optional).map FieldDecl.type
  | design block => (block.fields.filter EntityField.optional).map EntityField.type

/-- What is promised of the content of a block below a header cell. -/
structure WellFormed (header : Cell) (body : BlockContent) : Prop where
  orderly : Orderly header body.elements
  types : ∀ type ∈ body.types, type.isNormal = true
  optional : ∀ type ∈ body.optionalTypes, type.isNullable = true
  /-- Numbers fit the integer type of their enumeration, and are those that are written. -/
  numbers : ∀ block, body = .enum block → block.backing.isInteger = true ∧
    ∀ member ∈ block.members, block.backing.holds member.value = true ∧
      ∀ n, member.explicit = some n → member.value = n
  /-- Rows have a key. -/
  key : ∀ block, body = .design block → ∃ field ∈ block.fields, field.isKey = true

end BlockContent

/-- What a member of an enumeration keeps of its row. -/
theorem Member.read_spec {table : Table} {backing : Scalar} {start next : Int} {row : Nat}
    {name : String} {member : Member}
    (h : Member.read table backing start row name = .ok (next, member)) :
    (member.name = name ∧ member.origin = table.origin row) ∧
      backing.holds member.value = true ∧
      ∀ n, member.explicit = some n → member.value = n := by
  rw [Member.read] at h
  obtain ⟨explicit, -, h⟩ := bind_eq_ok.mp h
  dsimp only at h
  split at h
  · next hholds =>
    cases h
    refine ⟨⟨rfl, rfl⟩, hholds, ?_⟩
    rintro n rfl
    rfl
  · cases h

theorem FieldDecl.read_spec {table : Table} {row : Nat} {name : String} {field : FieldDecl}
    (h : FieldDecl.read table row name = .ok field) :
    (field.name = name ∧ field.origin = table.origin row) ∧ field.type.isNormal = true := by
  rw [FieldDecl.read] at h
  obtain ⟨type, htype, h⟩ := bind_eq_ok.mp h
  obtain ⟨_, -, h⟩ := bind_eq_ok.mp h
  cases h
  exact ⟨⟨rfl, rfl⟩, Table.isNormal_of_typeOf htype⟩

theorem ConstantDecl.read_spec {table : Table} {row : Nat} {name : String} {field : ConstantDecl}
    (h : ConstantDecl.read table row name = .ok field) :
    (field.name = name ∧ field.origin = table.origin row) ∧ field.type.isNormal = true := by
  rw [ConstantDecl.read] at h
  obtain ⟨type, htype, h⟩ := bind_eq_ok.mp h
  cases h
  exact ⟨⟨rfl, rfl⟩, Table.isNormal_of_typeOf htype⟩

theorem EntityField.read_spec {table : Table} {row : Nat} {name : String} {field : EntityField}
    (h : EntityField.read table row name = .ok field) :
    (field.name = name ∧ field.origin = table.origin row) ∧ field.type.isNormal = true ∧
      (field.optional = true → field.type.isNullable = true) := by
  rw [EntityField.read] at h
  obtain ⟨type, htype, h⟩ := bind_eq_ok.mp h
  obtain ⟨optional, hoptional, h⟩ := bind_eq_ok.mp h
  obtain ⟨_, -, h⟩ := bind_eq_ok.mp h
  cases h
  refine ⟨⟨rfl, rfl⟩, Table.isNormal_of_typeOf htype, ?_⟩
  rintro rfl
  exact Table.isNullable_of_optional hoptional

section Kinds

variable {dialect : Dialect} {view : View} {options : List String} (hfilled : view.Filled)

include hfilled

theorem EnumDecl.wellFormed_of_read {block : EnumDecl}
    (h : EnumDecl.read dialect view options = .ok block) :
    (BlockContent.enum block).WellFormed (view.place 0 0) := by
  have hinteger : block.backing.isInteger = true := EnumDecl.checked_of_read h
  rw [EnumDecl.read] at h
  obtain ⟨table, htable, h⟩ := bind_eq_ok.mp h
  obtain ⟨members, hmembers, h⟩ := bind_eq_ok.mp h
  cases h
  obtain rfl := Table.view_of_ofView htable
  refine ⟨?_, by simp [BlockContent.types], by simp [BlockContent.optionalTypes], ?_, by simp⟩
  · exact Table.orderly_of_readRows hfilled (fun _ _ _ _ _ hread => (Member.read_spec hread).1)
      hmembers
  · intro block hblock
    cases hblock
    exact ⟨hinteger, Table.forall_mem_readRows
      (fun _ _ _ _ _ hread => (Member.read_spec hread).2) _ hmembers⟩

theorem RecordDecl.wellFormed_of_read {block : RecordDecl}
    (h : RecordDecl.read dialect view options = .ok block) :
    (BlockContent.record block).WellFormed (view.place 0 0) := by
  have hchecked : ∀ field ∈ block.fields, field.optional = true → field.type.isNullable = true :=
    RecordDecl.checked_of_read h
  rw [RecordDecl.read] at h
  obtain ⟨table, htable, h⟩ := bind_eq_ok.mp h
  obtain ⟨fields, hfields, h⟩ := bind_eq_ok.mp h
  cases h
  obtain rfl := Table.view_of_ofView htable
  refine ⟨?_, ?_, ?_, by simp, by simp⟩
  · exact Table.orderly_of_readAll hfilled (fun _ _ _ hread => (FieldDecl.read_spec hread).1)
      hfields
  · exact List.forall_mem_map.mpr (Table.forall_mem_readAll
      (fun _ _ _ hread => (FieldDecl.read_spec hread).2) hfields)
  · refine List.forall_mem_map.mpr fun field hfield => ?_
    obtain ⟨hmem, hoptional⟩ := List.mem_filter.mp hfield
    exact hchecked field hmem hoptional

theorem ConstantDecl.wellFormed_of_readAll {fields : List ConstantDecl}
    (h : ConstantDecl.readAll dialect view = .ok fields) :
    (BlockContent.constant fields).WellFormed (view.place 0 0) := by
  rw [ConstantDecl.readAll] at h
  obtain ⟨table, htable, hfields⟩ := bind_eq_ok.mp h
  obtain rfl := Table.view_of_ofView htable
  refine ⟨?_, ?_, by simp [BlockContent.optionalTypes], by simp, by simp⟩
  · exact Table.orderly_of_readAll hfilled (fun _ _ _ hread => (ConstantDecl.read_spec hread).1)
      hfields
  · exact List.forall_mem_map.mpr (Table.forall_mem_readAll
      (fun _ _ _ hread => (ConstantDecl.read_spec hread).2) hfields)

theorem DesignDecl.wellFormed_of_read {block : DesignDecl}
    (h : DesignDecl.read dialect view = .ok block) :
    (BlockContent.design block).WellFormed (view.place 0 0) := by
  rw [DesignDecl.read] at h
  obtain ⟨table, htable, h⟩ := bind_eq_ok.mp h
  obtain ⟨fields, hfields, h⟩ := bind_eq_ok.mp h
  split at h
  · next hkey =>
    cases h
    obtain rfl := Table.view_of_ofView htable
    have hspec := Table.forall_mem_readAll
      (fun _ _ _ hread => (EntityField.read_spec hread).2) hfields
    refine ⟨?_, ?_, ?_, by simp, ?_⟩
    · exact Table.orderly_of_readAll hfilled (fun _ _ _ hread => (EntityField.read_spec hread).1)
        hfields
    · exact List.forall_mem_map.mpr fun field hfield => (hspec field hfield).1
    · refine List.forall_mem_map.mpr fun field hfield => ?_
      obtain ⟨hmem, hoptional⟩ := List.mem_filter.mp hfield
      exact (hspec field hmem).2 hoptional
    · intro block hblock
      cases hblock
      -- a design without a key was refused above
      exact List.any_eq_true.mp hkey
  · cases h

/-- **Each kind of block is read to what is promised of it.** -/
theorem BlockContent.wellFormed_of_read {kind : BlockKind} {body : BlockContent}
    (h : BlockContent.read dialect kind view options = .ok body) :
    body.WellFormed (view.place 0 0) := by
  rw [BlockContent.read.eq_def] at h
  cases kind with
  | description =>
    obtain ⟨text, -, rfl⟩ := map_eq_ok.mp h
    exact ⟨orderly_nil _, by simp [types], by simp [optionalTypes], by simp, by simp⟩
  | «enum» =>
    obtain ⟨block, hblock, rfl⟩ := map_eq_ok.mp h
    exact EnumDecl.wellFormed_of_read hfilled hblock
  | record =>
    obtain ⟨block, hblock, rfl⟩ := map_eq_ok.mp h
    exact RecordDecl.wellFormed_of_read hfilled hblock
  | interface =>
    cases h
    exact ⟨orderly_nil _, by simp [types], by simp [optionalTypes], by simp, by simp⟩
  | constant =>
    obtain ⟨fields, hfields, rfl⟩ := map_eq_ok.mp h
    exact ConstantDecl.wellFormed_of_readAll hfilled hfields
  | design =>
    obtain ⟨block, hblock, rfl⟩ := map_eq_ok.mp h
    exact DesignDecl.wellFormed_of_read hfilled hblock

end Kinds

/-- What is promised of a block: the kinds that declare a type have a name, the others have
none, and its content is well formed below its header. -/
structure Block.WellFormed (block : Block) : Prop where
  named : block.name.isSome = true ↔
    block.kind = .enum ∨ block.kind = .record ∨ block.kind = .interface
  content : block.body.WellFormed block.origin

theorem isSome_of_blockName {kind : BlockKind} {view : View} {name : Option String}
    (h : blockName kind view = .ok name) : name.isSome = kind.isNamed := by
  rw [blockName] at h
  split at h
  · next hnamed =>
    split at h
    · cases h
      rw [hnamed]
      rfl
    · cases h
  · next hnamed =>
    cases h
    rw [Bool.eq_false_iff.mpr hnamed]
    rfl

theorem Block.wellFormed_of_read {dialect : Dialect} {kind : BlockKind} {view : View}
    {block : Block} (hfilled : view.Filled) (h : Block.read dialect kind view = .ok block) :
    block.WellFormed := by
  have hkind := (kind_origin_of_read h).1
  rw [Block.read] at h
  obtain ⟨name, hname, h⟩ := bind_eq_ok.mp h
  obtain ⟨body, hbody, h⟩ := bind_eq_ok.mp h
  cases h
  refine ⟨?_, BlockContent.wellFormed_of_read hfilled hbody⟩
  rw [hkind, isSome_of_blockName hname]
  cases kind <;> simp [BlockKind.isNamed]

/-- **Every block of a sheet that was read is well formed.**  For every grid of texts,
whatever the dialect: the elements of a block have trimmed names of their own and come from
one row after another, from the second below its header on; optional fields are nullable;
types are in normal form; numbers fit the integer type of their enumeration and are those
that are written; a design has a key; and exactly the kinds that declare a type have a
name. -/
theorem Schema.blocks_wellFormed {dialect : Dialect} {sheet : String}
    {rows : List (List String)} {schema : Schema}
    (h : Schema.read dialect sheet (Grid.ofRows rows).view = .ok schema) :
    ∀ block ∈ schema.blocks, block.WellFormed := by
  intro block hblock
  obtain ⟨-, hfound, -⟩ := Schema.foundAt_of_read h
  obtain ⟨extent, -, hat⟩ := exists_left_of_forall₂ hfound hblock
  exact Block.wellFormed_of_read (View.filled_of_ofRows rfl) hat.read

/-! ### A sheet with every kind of block -/

namespace Crate

def rows : List (List String) := [
  ["[Description]"], [" What is in a crate. "],
  ["[Interface]", "IStored"],
  ["[Enum:byte]", "Size"], ["Value", "Name"], ["", " "], ["", "unread"], ["1", " Small "],
  ["; skipped"], ["200", "Large"],
  ["[Record]", "Part"], ["Name", "Type", "Optional"], [" Code", "List < Size? > ?", "TRUE"],
  ["[Constant]"], ["Name", "Type", "Value"], ["Limit", "int", "3"],
  ["[Design]"], ["Name", "Type", "IsPrimaryKey"], ["Id", "int", "true"], ["Parts", "List<Part>"],
  ["[Name]"], ["Id"], ["[Data]"], ["1"]]

/-- The sheet is read, and all its blocks are well formed. -/
theorem wellFormed_rows : ∃ schema,
    Schema.read default "Crate" (Grid.ofRows rows).view = .ok schema ∧
      schema.blocks.map Block.kind
        = [.description, .interface, .enum, .record, .constant, .design] ∧
      ∀ block ∈ schema.blocks, block.WellFormed := by
  obtain ⟨schema, hschema, hkinds⟩ : ∃ schema,
      Schema.read default "Crate" (Grid.ofRows rows).view = .ok schema ∧
        schema.blocks.map Block.kind
          = [.description, .interface, .enum, .record, .constant, .design] :=
    exists_ok_of_decide _ (by decide +kernel)
  exact ⟨schema, hschema, hkinds, Schema.blocks_wellFormed hschema⟩

end Crate
end TypedSheets

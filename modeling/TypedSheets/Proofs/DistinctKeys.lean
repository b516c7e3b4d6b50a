import TypedSheets.Proofs.DocumentShape
import TypedSheets.Proofs.WellFormedSchema

/-!
# Keys of objects

The names that one block of a sheet declares are all different, but the keys of objects are
generated names, and generating may turn two names into one: in the camel casing of a sheet
`id` and `Id` are two names, of which both become `Id` in Pascal.  Nothing checks this, so an
object may have a key twice, and a column may be read into the field of another.

Hence the keys of an object are different exactly as far as names are kept apart.  If every
block keeps its names apart, then no object at any depth has a key twice, and what stands
under the name of a field is what the row holds there.  Conversely, if no object has a key
twice, then the names of constants are kept apart, and those of the fields that a row always
has.

## Main definitions

* `Json.DistinctKeys` — **that no object in a tree has a key twice.**
* `Schema.KeysApart` — that every block keeps its names apart.
* `Catalog.Legible` — that the fields of a record can be read from its object.

## Main results

* `Catalog.Renders.distinctKeys`, `Schema.RendersDocument.distinctKeys` — documents of catalogs
  with distinct names.
* `Schema.IsRead.nodup_names` — the names of a block are all different.
* `Schema.keysApart_of_casing` — names that stay as they are stay apart.
* `Catalog.exists_block_of_mem_shapes` — the fields of a shape are those of a block.
* `Catalog.distinctNames_of_keysApart` — names kept apart are distinct in the catalog.
* `Catalog.nodup_of_distinctKeys` — the converse for one object.
* `Settings.compileSheet_distinctKeys` — **which sheets compile to documents without repeated
  keys.**
-/

namespace TypedSheets

/-! ### Trees without repeated keys -/

/-- That no object in a tree has a key twice. -/
inductive Json.DistinctKeys : Json → Prop
  | null : DistinctKeys .null
  | leaf {tree : Json} (h : tree.isLeaf = true) : DistinctKeys tree
  | arr {items : List Json} (h : ∀ item ∈ items, DistinctKeys item) : DistinctKeys (.arr items)
  | obj {members : List (String × Json)} (hkeys : (members.map Prod.fst).Nodup)
      (h : ∀ member ∈ members, DistinctKeys member.2) : DistinctKeys (.obj members)

theorem Json.DistinctKeys.of_mem_arr {items : List Json} (h : (Json.arr items).DistinctKeys)
    {item : Json} (hitem : item ∈ items) : item.DistinctKeys := by
  cases h with
  | leaf h => cases h
  | arr h => exact h item hitem

theorem Json.DistinctKeys.nodup {members : List (String × Json)}
    (h : (Json.obj members).DistinctKeys) : (members.map Prod.fst).Nodup := by
  cases h with
  | leaf h => cases h
  | obj hkeys _ => exact hkeys

theorem Json.DistinctKeys.of_mem_obj {members : List (String × Json)}
    (h : (Json.obj members).DistinctKeys) {member : String × Json} (hmember : member ∈ members) :
    member.2.DistinctKeys := by
  cases h with
  | leaf h => cases h
  | obj _ h => exact h member hmember

/-- The value of a key in an object; the first, if it has the key more than once. -/
def Json.member? : Json → String → Option Json
  | .obj members, key => OrderedMap.get? members key
  | _, _ => none

/-! ### Documents -/

namespace Catalog

variable {catalog : Catalog}

/-- The names of the fields that are written are different if all names are. -/
theorem nodup_writtenFields {shape : Shape} (hnames : shape.names.Nodup) (value : Value) :
    ((shape.writtenFields value).map Field.emitted).Nodup :=
  (List.filter_sublist.map Field.emitted).nodup hnames

/-- An object is free of repeated keys if its fields are written so. -/
theorem distinctKeys_obj {shape : Shape} (hnames : shape.names.Nodup) {value : Value}
    {members : List (String × Json)}
    (hkeys : members.map Prod.fst = (shape.writtenFields value).map Field.emitted)
    (h : ∀ field ∈ shape.fields, ∀ tree, (field.emitted, tree) ∈ members → tree.DistinctKeys) :
    (Json.obj members).DistinctKeys := by
  refine .obj (hkeys ▸ nodup_writtenFields hnames value) ?_
  rintro ⟨key, tree⟩ hmember
  have hkey : key ∈ (shape.writtenFields value).map Field.emitted :=
    hkeys ▸ List.mem_map.mpr ⟨(key, tree), hmember, rfl⟩
  obtain ⟨field, hfield, rfl⟩ := List.mem_map.mp hkey
  exact h field (List.mem_filter.mp hfield).1 tree hmember

/-- **What renders a value has no key twice**, by induction over how it does. -/
theorem Renders.distinctKeys (hdistinct : catalog.DistinctNames) {type : ResolvedType}
    {value : Value} {tree : Json} (h : catalog.Renders type value tree) : tree.DistinctKeys := by
  induction h with
  | absent _ => exact .null
  | noList _ => exact .arr (by simp)
  | list _ hlength _ ih =>
    refine .arr fun tree htree => ?_
    obtain ⟨i, htree⟩ := List.mem_iff_getElem?.mp htree
    have hi := (List.getElem?_eq_some_iff.mp htree).1
    exact ih i _ tree (List.getElem?_eq_getElem (hlength ▸ hi)) htree
  | record _ hshape hkeys _ ih => exact distinctKeys_obj (hdistinct.of_record hshape) hkeys ih
  | @leaf type value _ h _ =>
    refine .leaf ?_
    have hplain : (value.typed catalog type).isLeaf = true := by rwa [Value.isLeaf_typed]
    rwa [typed_of_isLeaf h] at hplain

theorem RendersRecord.distinctKeys (hdistinct : catalog.DistinctNames) {shape : Shape}
    (hnames : shape.names.Nodup) {value : Value} {tree : Json}
    (h : catalog.RendersRecord shape value tree) : tree.DistinctKeys := by
  obtain ⟨fields, members, rfl, rfl, hkeys, hmembers⟩ := h
  exact distinctKeys_obj hnames hkeys fun field hfield tree htree =>
    (hmembers field hfield tree htree).distinctKeys hdistinct

theorem RendersRows.distinctKeys (hdistinct : catalog.DistinctNames) {dialect : Dialect}
    {view : View} {block : Block} {tree : Json} (h : catalog.RendersRows dialect view block tree) :
    tree.DistinctKeys := by
  obtain ⟨entity, layout, plans, items, hentity, -, -, rfl, hitems⟩ := h
  refine .arr fun item hitem => ?_
  obtain ⟨row, -, value, -, hrecord⟩ := exists_left_of_forall₂ hitems hitem
  exact hrecord.distinctKeys hdistinct (hdistinct.1 entity hentity)

theorem RendersConstants.distinctKeys (hdistinct : catalog.DistinctNames)
    {fields : List ConstantDecl} {tree : Json} (h : catalog.RendersConstants fields tree) :
    tree.DistinctKeys := by
  obtain ⟨value, -, hrecord⟩ := h
  exact hrecord.distinctKeys hdistinct hdistinct.2.1

end Catalog

/-- **The document of a sheet with distinct names has no key twice.** -/
theorem Schema.RendersDocument.distinctKeys {schema : Schema} {dialect : Dialect}
    {catalog : Catalog} {view : View} (hdistinct : catalog.DistinctNames) {document : Option Json}
    (h : schema.RendersDocument dialect catalog view document) {tree : Json}
    (htree : document = some tree) : tree.DistinctKeys := by
  cases h with
  | nothing _ _ => cases htree
  | rows _ _ hrows =>
    cases htree
    exact hrows.distinctKeys hdistinct
  | constants _ _ hvalues =>
    cases htree
    exact hvalues.distinctKeys hdistinct
  | both _ _ hvalues hrows =>
    cases htree
    refine .obj (by simp) ?_
    simp only [List.forall_mem_cons, List.not_mem_nil, false_implies, implies_true, and_true]
    exact ⟨hvalues.distinctKeys hdistinct, hrows.distinctKeys hdistinct⟩

/-! ### Names of a block -/

/-- A name stays as it is if its casing does. -/
theorem Casing.convert_of_eq {source target : Casing} (h : source = target) (text : String) :
    source.convert target text = text := by
  rw [convert.eq_def, if_pos h]

namespace Table

variable {α : Type} {table : Table}

/-- Elements that are read one by one have different names. -/
theorem nodup_of_readAll {read : Nat → String → Except Fault α} {nameOf : α → String}
    {originOf : α → Cell} {dialect : Dialect} {elements : List α}
    (hread : ∀ row name element, read row name = .ok element →
      nameOf element = name ∧ originOf element = table.origin row)
    (h : table.readAll dialect read = .ok elements) : (elements.map nameOf).Nodup :=
  (readRows_named (of_step hread) _ h).2.2

end Table

namespace BlockContent

/-- The names of a block that become keys of objects. -/
def keyNames : BlockContent → List String
  | description _ | interface | enum _ => []
  | record block => block.fields.map FieldDecl.name
  | constant fields => fields.map ConstantDecl.name
  | design block => block.fields.map EntityField.name

/-- The key that a name of a block becomes. -/
def keyOf (naming : NameStyle) : BlockContent → String → String
  | record _ => naming.recordField
  | _ => naming.publicName

/-- The names of a block with the keys that they become. -/
def labels (naming : NameStyle) (body : BlockContent) : List (String × String) :=
  body.keyNames.map fun name => (name, body.keyOf naming name)

/-- **The names of a block are all different.** -/
theorem nodup_of_read {dialect : Dialect} {kind : BlockKind} {view : View} {options : List String}
    {body : BlockContent} (h : BlockContent.read dialect kind view options = .ok body) :
    body.keyNames.Nodup := by
  -- only records, constants and designs have names that become keys
  rw [BlockContent.read.eq_def] at h
  cases kind with
  | description =>
    obtain ⟨text, -, rfl⟩ := map_eq_ok.mp h
    exact List.nodup_nil
  | «enum» =>
    obtain ⟨block, -, rfl⟩ := map_eq_ok.mp h
    exact List.nodup_nil
  | record =>
    obtain ⟨block, hblock, rfl⟩ := map_eq_ok.mp h
    rw [RecordDecl.read] at hblock
    obtain ⟨table, -, hblock⟩ := bind_eq_ok.mp hblock
    obtain ⟨fields, hfields, hblock⟩ := bind_eq_ok.mp hblock
    cases hblock
    exact Table.nodup_of_readAll (fun _ _ _ hread => (FieldDecl.read_spec hread).1) hfields
  | interface =>
    cases h
    exact List.nodup_nil
  | constant =>
    obtain ⟨fields, hfields, rfl⟩ := map_eq_ok.mp h
    rw [ConstantDecl.readAll] at hfields
    obtain ⟨table, -, hfields⟩ := bind_eq_ok.mp hfields
    exact Table.nodup_of_readAll (fun _ _ _ hread => (ConstantDecl.read_spec hread).1) hfields
  | design =>
    obtain ⟨block, hblock, rfl⟩ := map_eq_ok.mp h
    rw [DesignDecl.read] at hblock
    obtain ⟨table, -, hblock⟩ := bind_eq_ok.mp hblock
    obtain ⟨fields, hfields, hblock⟩ := bind_eq_ok.mp hblock
    split at hblock
    · cases hblock
      exact Table.nodup_of_readAll (fun _ _ _ hread => (EntityField.read_spec hread).1) hfields
    · cases hblock

end BlockContent

namespace Schema

variable {schema : Schema} {naming : NameStyle}

theorem IsRead.nodup_names (h : schema.IsRead) {block : Block} (hblock : block ∈ schema.blocks) :
    block.body.keyNames.Nodup := by
  obtain ⟨dialect, kind, view, options, hread⟩ := h.exists_read hblock
  exact BlockContent.nodup_of_read hread

/-- That every block of a sheet keeps its names apart: different names become different
keys. -/
def KeysApart (naming : NameStyle) (schema : Schema) : Prop :=
  ∀ block ∈ schema.blocks, ∀ a ∈ block.body.keyNames, ∀ b ∈ block.body.keyNames,
    block.body.keyOf naming a = block.body.keyOf naming b → a = b

instance (naming : NameStyle) (schema : Schema) : Decidable (schema.KeysApart naming) :=
  inferInstanceAs (Decidable (∀ block ∈ schema.blocks, _))

/-- Names that stay as they are stay apart, whatever the sheet. -/
theorem keysApart_of_casing (hpublic : naming.casing = naming.settings.publicName)
    (hrecord : naming.casing = naming.settings.recordField) : schema.KeysApart naming := by
  intro block _ a _ b _ h
  have hstay : ∀ name, block.body.keyOf naming name = name := by
    intro name
    cases block.body with
    | record _ => exact Casing.convert_of_eq hrecord name
    | _ => exact Casing.convert_of_eq hpublic name
  rwa [hstay, hstay] at h

/-- The keys of a block are all different if its names are kept apart. -/
theorem nodup_keys (hread : schema.IsRead) (hapart : schema.KeysApart naming) {block : Block}
    (hblock : block ∈ schema.blocks) :
    (block.body.keyNames.map (block.body.keyOf naming)).Nodup :=
  (hread.nodup_names hblock).map_on (hapart block hblock)

theorem mem_of_design? {block : Block} {design : DesignDecl}
    (h : schema.design? = some (block, design)) :
    block ∈ schema.blocks ∧ block.body = .design design := by
  obtain ⟨found, hfound, h⟩ := List.exists_of_findSome?_eq_some h
  split at h
  · next hbody =>
    cases h
    exact ⟨hfound, hbody⟩
  · cases h

theorem mem_of_constants? {fields : List ConstantDecl} (h : schema.constants? = some fields) :
    ∃ block ∈ schema.blocks, block.body = .constant fields := by
  obtain ⟨found, hfound, h⟩ := List.exists_of_findSome?_eq_some h
  split at h
  · next hbody =>
    cases h
    exact ⟨found, hfound, hbody⟩
  · cases h

end Schema

/-! ### Names kept apart -/

/-- The fields of a shape by declared and generated name. -/
def Shape.labels (shape : Shape) : List (String × String) :=
  shape.fields.map fun field => (field.name, field.emitted)

theorem Shape.names_eq_labels (shape : Shape) : shape.names = shape.labels.map Prod.snd := by
  rw [labels, List.map_map]
  rfl

namespace Catalog

variable {catalog : Catalog} {schema : Schema} {others : List Schema} {naming : NameStyle}

/-- The fields of the data rows are those of the design. -/
theorem exists_design_of_entityShape {scope : Scope} {entity : Option Shape}
    (h : entityShape scope naming schema = .ok entity) {shape : Shape} (hshape : shape ∈ entity) :
    ∃ block design, schema.design? = some (block, design) ∧
      List.Forall₂ (fun decl field => designField scope naming decl = .ok field) design.fields
        shape.fields := by
  rw [entityShape] at h
  split at h
  · next block design hdesign =>
    obtain ⟨fields, hfields, h⟩ := bind_eq_ok.mp h
    cases h
    cases hshape
    exact ⟨block, design, hdesign, mapM_eq_ok_iff.mp hfields⟩
  · cases h
    cases hshape

theorem forall₂_of_constantShape {scope : Scope} {shape : Shape}
    (h : constantShape scope naming schema = .ok shape) :
    List.Forall₂ (fun decl field => constantField scope naming decl = .ok field)
      (schema.constants?.getD []) shape.fields := by
  rw [constantShape] at h
  obtain ⟨fields, hfields, h⟩ := bind_eq_ok.mp h
  cases h
  exact mapM_eq_ok_iff.mp hfields

/-- **The fields of a shape are those of a block** of this sheet or another one, in order, each
under its declared name and the key it becomes. -/
theorem exists_block_of_mem_shapes (hcatalog : ofSchemas schema others naming = .ok catalog)
    {shape : Shape} (hshape : shape ∈ catalog.shapes) :
    shape.fields = [] ∨ ∃ home ∈ schema :: others, ∃ block ∈ home.blocks,
      shape.labels = block.body.labels naming := by
  obtain ⟨rfl, scope, hmade⟩ := madeIn_of_ofSchemas hcatalog
  rcases mem_shapes_iff.mp hshape with hentity | rfl | ⟨name, hentry⟩
  · obtain ⟨block, design, hdesign, hfields⟩ := exists_design_of_entityShape hmade.entity hentity
    obtain ⟨hmem, hbody⟩ := Schema.mem_of_design? hdesign
    refine Or.inr ⟨schema, List.mem_cons_self .., block, hmem, ?_⟩
    rw [hbody, BlockContent.labels, BlockContent.keyNames, List.map_map]
    refine (map_eq_of_forall₂ hfields fun decl field hfield => ?_).symm
    obtain ⟨type, -, hfield⟩ := bind_eq_ok.mp hfield
    cases hfield
    rfl
  · have hconstants := forall₂_of_constantShape hmade.constants
    cases hfields : schema.constants? with
    | none =>
      rw [hfields] at hconstants
      exact Or.inl (List.forall₂_nil_left_iff.mp hconstants)
    | some fields =>
      rw [hfields] at hconstants
      obtain ⟨block, hmem, hbody⟩ := Schema.mem_of_constants? hfields
      refine Or.inr ⟨schema, List.mem_cons_self .., block, hmem, ?_⟩
      rw [hbody, BlockContent.labels, BlockContent.keyNames, List.map_map]
      refine (map_eq_of_forall₂ hconstants fun decl field hfield => ?_).symm
      obtain ⟨type, -, hfield⟩ := bind_eq_ok.mp hfield
      cases hfield
      rfl
  · -- the record is declared by this sheet or another one
    obtain ⟨record, hrecord, hshape⟩ := hmade.resolving.shapes _ hentry
    obtain ⟨home, hhome, block, hblock⟩ :=
      Schema.exists_of_sees? ((Scope.record?_eq_some_iff hmade.inScope).mp hrecord)
    obtain ⟨hmem, hcontent⟩ := Schema.mem_of_declarations hblock
    have hbody : block.body = .record record := hcontent
    refine Or.inr ⟨home, hhome, block, hmem, ?_⟩
    rw [hbody, BlockContent.labels, BlockContent.keyNames, List.map_map]
    exact (map_eq_of_forall₂ (recordShape_eq_ok_iff.mp hshape) fun decl field hfield =>
      Prod.ext hfield.name.symm hfield.emitted.symm).symm

/-- **Names that are kept apart are distinct in the catalog.** -/
theorem distinctNames_of_keysApart (hcatalog : ofSchemas schema others naming = .ok catalog)
    (hread : ∀ home ∈ schema :: others, home.IsRead)
    (hapart : ∀ home ∈ schema :: others, home.KeysApart naming) : catalog.DistinctNames := by
  -- every shape comes from a block, whose keys are different
  have hnames : ∀ shape ∈ catalog.shapes, shape.names.Nodup := by
    intro shape hshape
    rcases exists_block_of_mem_shapes hcatalog hshape with hnil | ⟨home, hhome, block, hblock, heq⟩
    · rw [Shape.names, hnil]
      exact List.nodup_nil
    · rw [Shape.names_eq_labels, heq, BlockContent.labels, List.map_map]
      exact Schema.nodup_keys (hread home hhome) (hapart home hhome) hblock
  refine ⟨fun shape hshape => ?_, ?_, fun entry hentry => ?_⟩
  · exact hnames shape (mem_shapes_iff.mpr (Or.inl hshape))
  · exact hnames _ (mem_shapes_iff.mpr (Or.inr (Or.inl rfl)))
  · exact hnames _ (mem_shapes_iff.mpr (Or.inr (Or.inr ⟨entry.1, hentry⟩)))

/-! ### Reading a field from its object -/

/-- That the fields of a record can be read from the object it is written as: under the name
of a field stands what is written for the value that the record holds there. -/
def Legible (catalog : Catalog) (shape : Shape) (value : Value) : Prop :=
  ∀ field ∈ shape.fields, (value.shaped catalog shape).member? field.emitted
    = field.written? catalog (value.slot field.emitted)

theorem legible_of_nodup {shape : Shape} (hnames : shape.names.Nodup)
    (fields : List (String × Value)) : catalog.Legible shape (.record fields) :=
  fun _ hfield => Shape.get?_members hnames hfield fields

/-- **An object without repeated keys** has fields with different names, up to those that may
be left out. -/
theorem nodup_of_distinctKeys {shape : Shape} {fields : List (String × Value)}
    (h : ((Value.record fields).shaped catalog shape).DistinctKeys) :
    ((shape.fields.filter fun field => !field.optional).map Field.emitted).Nodup := by
  have hkeys := h.nodup
  rw [keys_members] at hkeys
  -- a field that may not be left out is written
  have hwritten : (shape.fields.filter fun field => !field.optional).Sublist
      (shape.writtenFields (.record fields)) := by
    refine List.monotone_filter_right _ fun field hfield => ?_
    rw [Bool.not_eq_true'] at hfield ⊢
    rw [hfield, Bool.false_and]
  exact (hwritten.map Field.emitted).nodup hkeys

/-! ### Rows are records -/

variable {view : View} {entity : Shape} {plans : List Plan}

/-- Writing a cell to a record gives a record, since the first step of a column goes into a
field of the row. -/
theorem exists_fields_of_writeAt {plan : Plan} (hplan : plan.Sound catalog entity)
    {fields : List (String × Value)} {value written : Value}
    (h : catalog.writeAt plan.steps value (.record fields) = .ok written) :
    ∃ fields', written = .record fields' := by
  obtain ⟨hleads, last, hlast, -⟩ := hplan
  cases hsteps : plan.steps with
  | nil => rw [hsteps] at hlast; cases hlast
  | cons step rest =>
    rw [hsteps] at h hleads
    obtain ⟨hstep, -⟩ := hleads
    cases hstep with
    | row hfound =>
      rw [writeAt] at h
      obtain ⟨slot, -, h⟩ := bind_eq_ok.mp h
      cases h
      exact ⟨_, rfl⟩

theorem exists_fields_of_writeCell {row : Nat} {plan : Plan} (hplan : plan.Sound catalog entity)
    {fields : List (String × Value)} {written : Value}
    (h : catalog.writeCell view row (.record fields) plan = .ok written) :
    ∃ fields', written = .record fields' := by
  rcases cases_of_writeCell h with ⟨-, rfl⟩ | ⟨text, converted, -, -, hwritten⟩
  · exact ⟨fields, rfl⟩
  · exact exists_fields_of_writeAt hplan hwritten

/-- Cells written one after another: the induction is over the columns. -/
theorem exists_fields_of_foldlM {row : Nat} : ∀ {plans : List Plan},
    (∀ plan ∈ plans, plan.Sound catalog entity) → ∀ {fields : List (String × Value)}
      {written : Value}, plans.foldlM (catalog.writeCell view row) (.record fields) = .ok written →
        ∃ fields', written = .record fields'
  | [], _, fields, _, h => by
    cases h
    exact ⟨fields, rfl⟩
  | plan :: plans, hplans, fields, written, h => by
    rw [List.forall_mem_cons] at hplans
    rw [List.foldlM_cons] at h
    obtain ⟨value, hvalue, h⟩ := bind_eq_ok.mp h
    obtain ⟨fields', rfl⟩ := exists_fields_of_writeCell hplans.1 hvalue
    exact exists_fields_of_foldlM hplans.2 h

/-- **Data rows are records**, also if names are not kept apart. -/
theorem exists_fields_of_readRows (hplans : ∀ plan ∈ plans, plan.Sound catalog entity)
    {keys : List String} : ∀ {rows : List Nat} {seen : List (Key × Nat)} {values : List Value},
      catalog.readRows view entity plans keys rows seen = .ok values →
        ∀ value ∈ values, ∃ fields, value = .record fields := by
  intro rows
  induction rows with
  | nil =>
    intro seen values h
    cases h
    simp
  | cons row rows ih =>
    intro seen values h
    rw [readRows] at h
    obtain ⟨value, hvalue, h⟩ := bind_eq_ok.mp h
    dsimp only at h
    split at h
    · cases h
    · obtain ⟨rest, hrest, h⟩ := bind_eq_ok.mp h
      cases h
      exact List.forall_mem_cons.mpr ⟨exists_fields_of_foldlM hplans hvalue, ih hrest⟩

theorem exists_fields_of_readConstants {fields : List ConstantDecl} {value : Value}
    (h : catalog.readConstants fields = .ok value) : ∃ pairs, value = .record pairs := by
  rw [readConstants] at h
  obtain ⟨pairs, -, h⟩ := bind_eq_ok.mp h
  cases h
  exact ⟨_, rfl⟩

end Catalog

namespace SheetValues

variable {catalog : Catalog} {dialect : Dialect} {schema : Schema} {view : View}
  {data : SheetValues}

/-- The data of a sheet are records: its rows, if it has a design, and its constants. -/
theorem exists_fields_of_read (h : read dialect schema catalog view = .ok data) :
    (∀ rows entity, data.rows = some rows → catalog.entity = some entity → ∀ row ∈ rows,
      ∃ fields, row = .record fields) ∧
    ∀ constants, data.constants = some constants → ∃ fields, constants = .record fields := by
  obtain ⟨⟨hrows, hnoRows⟩, hconstants, hnoConstants⟩ := read_eq_ok h
  constructor
  · intro rows entity hdata hentity
    -- there are rows only with a design, and then they were read by its plans
    cases hdesign : schema.design? with
    | none => rw [hnoRows hdesign] at hdata; cases hdata
    | some found =>
      obtain ⟨values, hvalues, hsome⟩ := hrows found.1 found.2 entity hdesign hentity
      rw [hdata] at hsome
      cases hsome
      rw [readDesignRows] at hvalues
      obtain ⟨layout, -, hvalues⟩ := bind_eq_ok.mp hvalues
      obtain ⟨plans, hplans, hvalues⟩ := bind_eq_ok.mp hvalues
      exact Catalog.exists_fields_of_readRows (Plan.sound_of_ofRow hplans) hvalues
  · intro constants hdata
    cases hfields : schema.constants? with
    | none => rw [hnoConstants hfields] at hdata; cases hdata
    | some fields =>
      obtain ⟨value, hvalue, hsome⟩ := hconstants fields hfields
      rw [hdata] at hsome
      cases hsome
      exact Catalog.exists_fields_of_readConstants hvalue

/-- The parts of a document without repeated keys have none. -/
theorem distinctKeys_parts {tree : Json} (htree : data.document? catalog = some tree)
    (h : tree.DistinctKeys) :
    (∀ constants, data.constantsJson? catalog = some constants → constants.DistinctKeys) ∧
      ∀ rows, data.rowsJson? catalog = some rows → rows.DistinctKeys := by
  -- a document is one of its parts, or an object with both
  rw [document?] at htree
  cases hconstants : data.constantsJson? catalog with
  | none =>
    cases hrows : data.rowsJson? catalog with
    | none => rw [hconstants, hrows] at htree; cases htree
    | some rows =>
      rw [hconstants, hrows] at htree
      cases htree
      exact ⟨by simp, by rintro _ ⟨⟩; exact h⟩
  | some constants =>
    cases hrows : data.rowsJson? catalog with
    | none =>
      rw [hconstants, hrows] at htree
      cases htree
      exact ⟨by rintro _ ⟨⟩; exact h, by simp⟩
    | some rows =>
      rw [hconstants, hrows] at htree
      cases htree
      refine ⟨?_, ?_⟩
      · rintro _ ⟨⟩
        exact h.of_mem_obj (List.mem_cons_self ..)
      · rintro _ ⟨⟩
        exact h.of_mem_obj (List.mem_cons_of_mem _ (List.mem_singleton_self _))

end SheetValues

namespace Catalog

variable {scope : Scope} {naming : NameStyle} {schema : Schema}

/-- The fields that a row always has are those of the design that may not be left out. -/
theorem required_of_entityShape {shape : Shape} {block : Block} {design : DesignDecl}
    (h : entityShape scope naming schema = .ok (some shape))
    (hdesign : schema.design? = some (block, design)) :
    (shape.fields.filter fun field => !field.optional).map Field.emitted
      = (design.fields.filter fun field => !field.optional).map fun field =>
          naming.publicName field.name := by
  rw [entityShape, hdesign] at h
  obtain ⟨fields, hfields, h⟩ := bind_eq_ok.mp h
  cases h
  -- names and optional flags are taken over from the design together
  have hpairs : (fields.map fun field => (field.emitted, field.optional))
      = design.fields.map fun field => (naming.publicName field.name, field.optional) := by
    refine (map_eq_of_forall₂ (mapM_eq_ok_iff.mp hfields) ?_).symm
    intro decl field hfield
    obtain ⟨type, -, hfield⟩ := bind_eq_ok.mp hfield
    cases hfield
    rfl
  have hrequired := congrArg (fun pairs => (pairs.filter fun pair => !pair.2).map Prod.fst) hpairs
  simp only [List.filter_map, List.map_map] at hrequired
  exact hrequired

/-- Constants are always there. -/
theorem required_of_constantShape {shape : Shape}
    (h : constantShape scope naming schema = .ok shape) :
    (shape.fields.filter fun field => !field.optional).map Field.emitted = shape.names := by
  have hrequired : ∀ field ∈ shape.fields, (!field.optional) = true := by
    intro field hfield
    rw [constantShape] at h
    obtain ⟨fields, hfields, h⟩ := bind_eq_ok.mp h
    cases h
    obtain ⟨decl, -, hdecl⟩ := exists_of_mem_mapM hfields hfield
    obtain ⟨type, -, hdecl⟩ := bind_eq_ok.mp hdecl
    cases hdecl
    rfl
  rw [List.filter_eq_self.mpr hrequired, Shape.names]

end Catalog

/-- The schema of a sheet is one that was read. -/
theorem Settings.isRead_of_readSchema {settings : Settings} {name : String} {grid : Grid}
    {schema : Schema} (h : settings.readSchema name grid = .ok schema) : schema.IsRead := by
  obtain ⟨dialect, -, h⟩ := bind_eq_ok.mp h
  have hread := charge_eq_ok.mp h
  obtain ⟨hsheet, -⟩ := Schema.foundAt_of_read hread
  exact ⟨dialect, grid.view, hsheet.symm ▸ hread⟩

/-- **Which sheets compile to documents without repeated keys.**  For sheets that were read: if
every block keeps its names apart when they become keys, then no object of the document has a
key twice, and every field of a row and every constant stands under its name.  If no object of
the document has a key twice, then the names of constants are kept apart, and if there are
rows, those of the fields of the design that may not be left out. -/
theorem Settings.compileSheet_distinctKeys {settings : Settings} {schema : Schema} {grid : Grid}
    {schemas : List Schema} {output : SheetOutput}
    (hread : ∀ home ∈ schema :: schemas, home.IsRead)
    (h : settings.compileSheet schema grid schemas = .ok output) :
    ∃ dialect catalog values, settings.dialect = .ok dialect ∧
      Catalog.ofSchemas schema schemas settings.names = .ok catalog ∧
      SheetValues.read dialect schema catalog grid.view = .ok values ∧
      output.data = (values.document? catalog).map Json.pretty ∧
      ((∀ home ∈ schema :: schemas, home.KeysApart settings.names) →
        (∀ tree, values.document? catalog = some tree → tree.DistinctKeys) ∧
        (∀ rows entity, values.rows = some rows → catalog.entity = some entity →
          ∀ row ∈ rows, catalog.Legible entity row) ∧
        ∀ constants, values.constants = some constants →
          catalog.Legible catalog.constants constants) ∧
      ∀ tree, values.document? catalog = some tree → tree.DistinctKeys →
        (∀ fields, schema.constants? = some fields →
          (fields.map fun field => settings.names.publicName field.name).Nodup) ∧
        ∀ block design, schema.design? = some (block, design) → values.rows ≠ some [] →
          ((design.fields.filter fun field => !field.optional).map fun field =>
            settings.names.publicName field.name).Nodup := by
  obtain ⟨dialect, catalog, values, hdialect, hcatalog, hvalues, rfl⟩ := compileSheet_eq_ok.mp h
  obtain ⟨hrecords, hconstants⟩ := SheetValues.exists_fields_of_read hvalues
  obtain ⟨hnaming, scope, hmade⟩ := Catalog.madeIn_of_ofSchemas hcatalog
  refine ⟨dialect, catalog, values, hdialect, hcatalog, hvalues, rfl, ?apart, ?converse⟩
  case apart =>
    intro hapart
    have hdistinct := Catalog.distinctNames_of_keysApart hcatalog hread hapart
    refine ⟨fun tree htree => ?_, fun rows entity hrows hentity row hrow => ?_,
      fun constants hsome => ?_⟩
    · exact (SheetValues.rendersDocument_of_read hcatalog hdistinct hvalues).distinctKeys
        hdistinct htree
    · obtain ⟨fields, rfl⟩ := hrecords rows entity hrows hentity row hrow
      exact Catalog.legible_of_nodup (hdistinct.1 entity hentity) fields
    · obtain ⟨fields, rfl⟩ := hconstants constants hsome
      exact Catalog.legible_of_nodup hdistinct.2.1 fields
  case converse =>
    intro tree htree hkeys
    obtain ⟨hconstantKeys, hrowKeys⟩ := SheetValues.distinctKeys_parts htree hkeys
    obtain ⟨⟨hreadRows, -⟩, hreadConstants, -⟩ := SheetValues.read_eq_ok hvalues
    have hentity := hmade.entity
    have hshape := hmade.constants
    rw [hnaming] at hentity hshape
    constructor
    · intro fields hfields
      obtain ⟨value, -, hsome⟩ := hreadConstants fields hfields
      obtain ⟨pairs, rfl⟩ := hconstants value hsome
      have hobject := hconstantKeys _ (by rw [SheetValues.constantsJson?, hsome, Option.map_some])
      rw [← Catalog.names_of_constantShape hshape hfields,
        ← Catalog.required_of_constantShape hshape]
      exact Catalog.nodup_of_distinctKeys hobject
    · intro block design hdesign hrows
      obtain ⟨entity, hsome⟩ := Catalog.exists_entityShape hentity hdesign
      obtain ⟨rows, -, hdata⟩ := hreadRows block design entity hdesign hsome
      rw [hsome] at hentity
      -- one row is enough
      cases rows with
      | nil => exact absurd hdata hrows
      | cons row rows =>
        obtain ⟨fields, rfl⟩ := hrecords _ entity hdata hsome row (List.mem_cons_self ..)
        have harray := hrowKeys _ (by rw [SheetValues.rowsJson?, hdata, hsome]; rfl)
        rw [← Catalog.required_of_entityShape hentity hdesign]
        exact Catalog.nodup_of_distinctKeys (harray.of_mem_arr (List.mem_cons_self ..))

/-! ### Names that become one -/

namespace Twins

/-- Settings for sheets in camel casing; generated names are in Pascal casing. -/
def settings : Settings := { sheet := { casing := .camel } }

/-- Two fields whose names differ in the case of their first letter. -/
def grid : Grid := ⟨#[
  #[some "[design]"], #[some "name", some "type", some "isPrimaryKey"],
  #[some "id", some "int", some "true"], #[some "Id", some "int"],
  #[some "[name]"], #[some "id", some "Id"], #[some "[data]"], #[some "1", some "2"]]⟩

/-- The sheet compiles, but its only row has the same key for both fields.  Both columns are
read into the first field, so that what is in the first column is lost. -/
theorem repeated_key : ∃ schema output tree, settings.readSchema "Twins" grid = .ok schema ∧
    settings.compileSheet schema grid [schema] = .ok output ∧
    output.data = some (Json.pretty tree) ∧
    tree = .arr [.obj [("Id", .int 2), ("Id", .int 2)]] ∧ ¬ tree.DistinctKeys := by
  obtain ⟨output, houtput, hdata⟩ : ∃ output,
      (settings.readSchema "Twins" grid >>= fun schema =>
        settings.compileSheet schema grid [schema]) = .ok output ∧
      output.data = some (Json.pretty (.arr [.obj [("Id", .int 2), ("Id", .int 2)]])) :=
    exists_ok_of_decide _ (by decide +kernel)
  obtain ⟨schema, hschema, houtput⟩ := bind_eq_ok.mp houtput
  refine ⟨schema, output, _, hschema, houtput, hdata, rfl, fun h => ?_⟩
  have hkeys := (h.of_mem_arr (List.mem_singleton_self _)).nodup
  revert hkeys
  decide

/-- Fields and constants whose names stay apart, and a record. -/
def apart : Grid := ⟨#[
  #[some "[record]", some "spot"], #[some "name", some "type"], #[some "row", some "int"],
  #[some "column", some "int"],
  #[some "[constant]"], #[some "name", some "type", some "value"],
  #[some "limit", some "int", some "3"], #[some "lowLimit", some "int", some "1"],
  #[some "[design]"], #[some "name", some "type", some "isPrimaryKey"],
  #[some "id", some "int", some "true"], #[some "spot", some "spot"],
  #[some "[name]"], #[some "id", some "spot.row"], #[some "[data]"], #[some "1", some "2"]]⟩

/-- The sheet compiles to a document without repeated keys. -/
theorem distinctKeys_apart : ∃ schema output tree,
    settings.readSchema "Apart" apart = .ok schema ∧
    settings.compileSheet schema apart [schema] = .ok output ∧
    output.data = some (Json.pretty tree) ∧ tree.DistinctKeys := by
  obtain ⟨schema, hschema, hapart, hcompiles⟩ : ∃ schema,
      settings.readSchema "Apart" apart = .ok schema ∧ schema.KeysApart settings.names ∧
        ((settings.compileSheet schema apart [schema]).toOption.any fun output =>
          decide (output.data.isSome = true)) = true :=
    exists_ok_of_decide _ (by decide +kernel)
  obtain ⟨output, houtput, hsome⟩ := exists_ok_of_decide _ hcompiles
  have hread : ∀ home ∈ [schema, schema], home.IsRead := by
    simp [Settings.isRead_of_readSchema hschema]
  obtain ⟨-, catalog, values, -, -, -, hdata, hkeys, -⟩ :=
    Settings.compileSheet_distinctKeys hread houtput
  cases htree : values.document? catalog with
  | none =>
    rw [hdata, htree] at hsome
    cases hsome
  | some tree =>
    rw [htree] at hdata
    exact ⟨schema, output, tree, hschema, houtput, hdata, (hkeys (by simp [hapart])).1 tree htree⟩

end Twins
end TypedSheets

import TypedSheets.Compiler
import TypedSheets.Proofs.Document
import TypedSheets.Proofs.Resolution
import TypedSheets.Proofs.RowOutcome

/-!
# Documents follow the schema

The data document of a sheet, described without the writer: which parts it has, which
members its objects have at every depth, and where `null` may stand.  What is described is a
tree together with the value that it renders, since an optional field is left out exactly
when its value is absent.

All values that are read conform to their types, and conforming values are written as
described; so the document of every sheet that compiles is as described.

## Main definitions

* `Shape.writtenFields` — the fields of a record that are not left out.
* `Catalog.Renders`, `Catalog.RendersRecord` — **how values of a type, and records of a shape,
  are rendered.**
* `Schema.RendersDocument` — how the data of a sheet is.

## Main results

* `Catalog.renders_of_conforms` — conforming values are written as described.
* `Catalog.readConstants_conforms` — constants conform to their shape.
* `Settings.compileSheet_rendersDocument` — **the document of a sheet that compiles.**
-/

namespace TypedSheets

/-! ### How values are rendered -/

/-- Whether a type is a scalar or an enumeration, once `?` and references are taken off. -/
def ResolvedType.isPlain (type : ResolvedType) : Bool :=
  match type.bare with
  | .scalar _ | .enum _ => true
  | _ => false

/-- The fields of a record that are written: all but the optional ones without a value. -/
def Shape.writtenFields (shape : Shape) (value : Value) : List Field :=
  shape.fields.filter fun field => !(field.optional && (value.slot field.emitted).isNull)

namespace Catalog

/-- That a value of a type is rendered as a tree. -/
inductive Renders (catalog : Catalog) : ResolvedType → Value → Json → Prop
  /-- `null` stands only where it may, and so never for a list. -/
  | absent {type : ResolvedType} (h : type.mayBeNull = true) : Renders catalog type .null .null
  /-- A list that is absent is an empty array. -/
  | noList {type element : ResolvedType} (htype : type.bare = .list element) :
      Renders catalog type .null (.arr [])
  /-- A list is an array with its items in order. -/
  | list {type element : ResolvedType} {items : List Value} {trees : List Json}
      (htype : type.bare = .list element) (hlength : trees.length = items.length)
      (h : ∀ (i : Nat) item tree, items[i]? = some item → trees[i]? = some tree →
        Renders catalog element item tree) :
      Renders catalog type (.list items) (.arr trees)
  /-- The keys of an object are the names of the fields of its shape, in the order of the
  sheet, without those that are optional and absent. -/
  | record {type : ResolvedType} {name : String} {shape : Shape} {fields : List (String × Value)}
      {members : List (String × Json)} (htype : type.bare = .record name)
      (hshape : catalog.record? name = some shape)
      (hkeys : members.map Prod.fst = (shape.writtenFields (.record fields)).map Field.emitted)
      (h : ∀ field ∈ shape.fields, ∀ tree, (field.emitted, tree) ∈ members →
        Renders catalog field.type ((Value.record fields).slot field.emitted) tree) :
      Renders catalog type (.record fields) (.obj members)
  /-- A scalar or a member of an enumeration is itself.  A fractional number is finite, so
  that its text is a number. -/
  | leaf {type : ResolvedType} {value : Value} (htype : type.isPlain = true)
      (h : value.isLeaf = true) (hfinite : ∀ x, value = .float x → x.isFinite = true) :
      Renders catalog type value value.plain

/-- That a record of a shape is rendered as an object: by the same rule as a record inside a
row. -/
def RendersRecord (catalog : Catalog) (shape : Shape) (value : Value) (tree : Json) : Prop :=
  ∃ fields members, value = .record fields ∧ tree = .obj members ∧
    members.map Prod.fst = (shape.writtenFields value).map Field.emitted ∧
    ∀ field ∈ shape.fields, ∀ item, (field.emitted, item) ∈ members →
      catalog.Renders field.type (value.slot field.emitted) item

variable {catalog : Catalog}

/-! ### Conforming values are rendered -/

/-- Where a value may be absent, its absence is written as it has to be. -/
theorem Conforms.renders_null {type : ResolvedType} (h : catalog.Conforms type .null) :
    catalog.Renders type .null (Value.null.typed catalog type) := by
  rw [Value.typed, Value.typedNull]
  split
  · next hlist =>
    cases hbare : type.bare with
    | list element => exact .noList hbare
    | _ => rw [hbare] at hlist; cases hlist
  · next hlist => exact .absent (h.mayBeNull (Bool.eq_false_iff.mpr hlist))

theorem keys_members (catalog : Catalog) (shape : Shape) (fields : List (String × Value)) :
    (shape.members (Value.writers catalog fields)).map Prod.fst
      = (shape.writtenFields (.record fields)).map Field.emitted := by
  rw [Shape.members_writers, Shape.writtenFields]
  induction shape.fields with
  | nil => rfl
  | cons field rest ih =>
    rw [List.filterMap_cons, List.filter_cons, Field.written?]
    cases field.optional && ((Value.record fields).slot field.emitted).isNull with
    | true => simpa using ih
    | false => simpa using ih

/-- A member of an object is what is written for its field. -/
theorem mem_members {shape : Shape} (hnames : shape.names.Nodup) {field : Field}
    (hfield : field ∈ shape.fields) {fields : List (String × Value)} {tree : Json}
    (h : (field.emitted, tree) ∈ shape.members (Value.writers catalog fields)) :
    tree = ((Value.record fields).slot field.emitted).typed catalog field.type := by
  rw [Shape.members_writers] at h
  obtain ⟨other, hother, heq⟩ := List.mem_filterMap.mp h
  obtain ⟨written, hwritten, heq⟩ := Option.map_eq_some_iff.mp heq
  obtain ⟨hname, rfl⟩ := Prod.mk.inj heq
  -- another field under the same name would be the same field
  obtain rfl := Shape.eq_of_emitted_eq hnames hother hfield hname
  rw [Field.written?] at hwritten
  split at hwritten
  · cases hwritten
  · cases hwritten
    rfl

/-- **Conforming values are written as described.** -/
theorem renders_of_conforms (hdistinct : catalog.DistinctNames) {type : ResolvedType}
    {value : Value} (h : catalog.Conforms type value) :
    catalog.Renders type value (value.typed catalog type) := by
  refine h.induction_bare (motive := fun type value =>
    catalog.Renders type value (value.typed catalog type)) ?null ?scalar ?enum ?list ?record
  case null =>
    intro type h
    exact h.renders_null
  case scalar =>
    intro type s value htype hvalue hne
    have hleaf := isLeaf_of_admits hvalue hne
    rw [typed_of_isLeaf hleaf]
    refine .leaf (by rw [ResolvedType.isPlain, htype]) hleaf ?_
    rintro x rfl
    exact hvalue.1
  case enum =>
    intro type name value htype hvalue
    have hleaf := isLeaf_of_enumAdmits hvalue
    rw [typed_of_isLeaf hleaf]
    refine .leaf (by rw [ResolvedType.isPlain, htype]) hleaf ?_
    rintro x rfl
    exact hvalue.elim
  case list =>
    intro type element items htype ih
    rw [Value.typed_list htype, Value.typedList_eq_map]
    -- item by item: what stands at a position is what is written for the item there
    refine .list htype (List.length_map ..) ?_
    intro i item tree hitem htree
    rw [List.getElem?_map, hitem, Option.map_some] at htree
    cases htree
    exact ih item (List.mem_of_getElem? hitem)
  case record =>
    intro type name shape fields htype hshape ih
    rw [Value.typed_record htype hshape]
    refine .record htype hshape (keys_members catalog shape fields) ?_
    intro field hfield tree htree
    rw [mem_members (hdistinct.of_record hshape) hfield htree]
    exact ih field hfield

theorem rendersRecord_of_rowConforms (hdistinct : catalog.DistinctNames) {shape : Shape}
    (hnames : shape.names.Nodup) {value : Value} (h : catalog.RowConforms shape value) :
    catalog.RendersRecord shape value (value.shaped catalog shape) := by
  obtain ⟨fields, rfl⟩ := h.exists_fields
  refine ⟨fields, _, rfl, rfl, keys_members catalog shape fields, ?_⟩
  intro field hfield item hitem
  rw [mem_members hnames hfield hitem]
  exact renders_of_conforms hdistinct (h.conforms_slot hfield)

/-! ### Constants -/

theorem constantValue_eq_ok {field : ConstantDecl} {resolved : Field} {pair : String × Value}
    (h : catalog.constantValue field resolved = .ok pair) :
    pair.1 = resolved.emitted ∧ catalog.ofText resolved.type field.value = .ok pair.2 := by
  rw [constantValue] at h
  split at h
  · next value hvalue =>
    cases h
    exact ⟨rfl, hvalue⟩
  · cases h

/-- **Constants conform to their shape**, which has one field for each. -/
theorem readConstants_conforms (hdistinct : catalog.DistinctNames) {fields : List ConstantDecl}
    (hlength : fields.length = catalog.constants.fields.length) {value : Value}
    (h : catalog.readConstants fields = .ok value) :
    catalog.RowConforms catalog.constants value := by
  rw [readConstants] at h
  obtain ⟨pairs, hpairs, h⟩ := bind_eq_ok.mp h
  cases h
  have hread := mapM_eq_ok_iff.mp hpairs
  -- declarations and fields are read in pairs, and none is left over
  have hfields : (fields.zip catalog.constants.fields).map Prod.snd = catalog.constants.fields :=
    List.map_snd_zip (Nat.le_of_eq hlength.symm)
  have hnames : pairs.map Prod.fst = catalog.constants.names := by
    rw [Shape.names, ← hfields, List.map_map]
    exact (map_eq_of_forall₂ hread fun _ _ hvalue => (constantValue_eq_ok hvalue).1.symm).symm
  -- no name is written twice, so nothing is replaced
  have hself : OrderedMap.ofList pairs = pairs :=
    OrderedMap.ofList_eq_self (by rw [hnames]; exact hdistinct.2.1)
  rw [hself, rowConforms_record_iff]
  refine ⟨hnames, ?_⟩
  intro field hfield held hheld
  obtain ⟨entry, hentry, hvalue⟩ := exists_left_of_forall₂ hread (OrderedMap.mem_of_get? hheld)
  obtain ⟨hname, htext⟩ := constantValue_eq_ok hvalue
  have hmem : entry.2 ∈ catalog.constants.fields := by
    rw [← hfields]
    exact List.mem_map_of_mem hentry
  obtain rfl := Shape.eq_of_emitted_eq hdistinct.2.1 hfield hmem hname
  exact ofText_conforms hdistinct htext

/-! ### Shapes of rows and constants -/

section Shapes

variable {scope : Scope} {naming : NameStyle} {schema : Schema}

/-- The names in a row are those of the fields of the design, in order. -/
theorem names_of_entityShape {shape : Shape} {block : Block} {design : DesignDecl}
    (h : entityShape scope naming schema = .ok (some shape))
    (hdesign : schema.design? = some (block, design)) :
    shape.names = design.fields.map fun field => naming.publicName field.name := by
  rw [entityShape, hdesign] at h
  obtain ⟨fields, hfields, h⟩ := bind_eq_ok.mp h
  cases h
  refine (map_eq_of_forall₂ (mapM_eq_ok_iff.mp hfields) ?_).symm
  intro decl field hfield
  obtain ⟨type, -, hfield⟩ := bind_eq_ok.mp hfield
  cases hfield
  rfl

/-- A sheet with a design has a shape for its rows, and only such a sheet. -/
theorem exists_entityShape {entity : Option Shape}
    (h : entityShape scope naming schema = .ok entity)
    {block : Block} {design : DesignDecl} (hdesign : schema.design? = some (block, design)) :
    ∃ shape, entity = some shape := by
  rw [entityShape, hdesign] at h
  obtain ⟨fields, -, h⟩ := bind_eq_ok.mp h
  cases h
  exact ⟨_, rfl⟩

theorem names_of_constantShape {shape : Shape} {fields : List ConstantDecl}
    (h : constantShape scope naming schema = .ok shape)
    (hfields : schema.constants? = some fields) :
    shape.names = fields.map fun field => naming.publicName field.name := by
  rw [constantShape, hfields] at h
  obtain ⟨resolved, hresolved, h⟩ := bind_eq_ok.mp h
  cases h
  refine (map_eq_of_forall₂ (mapM_eq_ok_iff.mp hresolved) ?_).symm
  intro decl field hfield
  obtain ⟨type, -, hfield⟩ := bind_eq_ok.mp hfield
  cases hfield
  rfl

end Shapes

/-! ### Documents -/

/-- That the data rows of a sheet are rendered as an array: one object for each row, in
order. -/
def RendersRows (catalog : Catalog) (dialect : Dialect) (view : View) (block : Block)
    (tree : Json) : Prop :=
  ∃ entity layout plans items, catalog.entity = some entity ∧
    DataLayout.find dialect view block.origin = .ok layout ∧
    Plan.ofRow dialect catalog entity view layout.pathRow = .ok plans ∧ tree = .arr items ∧
    List.Forall₂ (fun row item => ∃ value, catalog.readRow view entity plans row = .ok value ∧
      catalog.RendersRecord entity value item) layout.rows items

/-- That the constants of a sheet are rendered as an object. -/
def RendersConstants (catalog : Catalog) (fields : List ConstantDecl) (tree : Json) : Prop :=
  ∃ value, catalog.readConstants fields = .ok value ∧
    catalog.RendersRecord catalog.constants value tree

end Catalog

/-- That the data of a sheet is rendered as a document: its rows, its constants, or an object
of both. -/
inductive Schema.RendersDocument (schema : Schema) (dialect : Dialect) (catalog : Catalog)
    (view : View) : Option Json → Prop
  | nothing (hdesign : schema.design? = none) (hconstants : schema.constants? = none) :
      RendersDocument schema dialect catalog view none
  | rows {block : Block} {design : DesignDecl} {rows : Json}
      (hdesign : schema.design? = some (block, design)) (hconstants : schema.constants? = none)
      (hrows : catalog.RendersRows dialect view block rows) :
      RendersDocument schema dialect catalog view (some rows)
  | constants {fields : List ConstantDecl} {constants : Json} (hdesign : schema.design? = none)
      (hconstants : schema.constants? = some fields)
      (hvalues : catalog.RendersConstants fields constants) :
      RendersDocument schema dialect catalog view (some constants)
  | both {block : Block} {design : DesignDecl} {fields : List ConstantDecl} {constants rows : Json}
      (hdesign : schema.design? = some (block, design))
      (hconstants : schema.constants? = some fields)
      (hvalues : catalog.RendersConstants fields constants)
      (hrows : catalog.RendersRows dialect view block rows) :
      RendersDocument schema dialect catalog view
        (some (.obj [("item1", constants), ("item2", rows)]))

namespace SheetValues

variable {catalog : Catalog} {dialect : Dialect} {schema : Schema} {view : View}
  {data : SheetValues}

/-- The rows that are read below a design are rendered. -/
theorem rendersRows_of_readDesignRows (hdistinct : catalog.DistinctNames) {entity : Shape}
    (hentity : catalog.entity = some entity) {block : Block} {design : DesignDecl}
    {values : List Value}
    (h : readDesignRows dialect catalog view block design entity = .ok values) :
    catalog.RendersRows dialect view block (.arr (values.map (Value.shaped catalog entity))) := by
  rw [readDesignRows] at h
  obtain ⟨layout, hlayout, h⟩ := bind_eq_ok.mp h
  obtain ⟨plans, hplans, h⟩ := bind_eq_ok.mp h
  have hnames := hdistinct.1 entity hentity
  have hsound := Plan.sound_of_ofRow hplans
  refine ⟨entity, layout, plans, _, hentity, hlayout, hplans, rfl, ?_⟩
  have hconforms := (Catalog.readRows_conforms hdistinct hnames hsound layout.rows [] h).2
  have hread := (Catalog.accepted_of_readRows hdistinct hnames hsound h).2
  -- each value conforms, and is what its row is read as
  have hboth : List.Forall₂ (fun value row => catalog.RowConforms entity value ∧
      catalog.readRow view entity plans row = .ok value) values layout.rows :=
    (List.forall₂_and_left values layout.rows).mpr ⟨hconforms, hread.flip⟩
  rw [List.forall₂_map_right_iff]
  refine hboth.flip.imp ?_
  rintro row value ⟨hvalue, hrow⟩
  exact ⟨value, hrow, Catalog.rendersRecord_of_rowConforms hdistinct hnames hvalue⟩

/-- The constants of a sheet are read after its rows, whatever these are. -/
theorem constants_of_eq_ok {rows : Option (List Value)} {rest : Except Fault SheetValues}
    (hnone : schema.constants? = none → rest = .ok ⟨rows, none⟩)
    (hsome : ∀ fields, schema.constants? = some fields →
      rest = (catalog.readConstants fields).map some >>= fun constants => .ok ⟨rows, constants⟩)
    (h : rest = .ok data) :
    data.rows = rows ∧
      (∀ fields, schema.constants? = some fields →
        ∃ value, catalog.readConstants fields = .ok value ∧ data.constants = some value) ∧
      (schema.constants? = none → data.constants = none) := by
  cases hfields : schema.constants? with
  | none =>
    rw [hnone hfields] at h
    cases h
    exact ⟨rfl, by simp, fun _ => rfl⟩
  | some fields =>
    rw [hsome fields hfields] at h
    obtain ⟨_, hmap, h⟩ := bind_eq_ok.mp h
    obtain ⟨value, hvalue, rfl⟩ := map_eq_ok.mp hmap
    cases h
    refine ⟨rfl, ?_, by simp⟩
    intro fields' heq
    cases heq
    exact ⟨value, hvalue, rfl⟩

/-- The parts of the data of a sheet: rows for a design, constants where there are some. -/
theorem read_eq_ok (h : read dialect schema catalog view = .ok data) :
    ((∀ block design entity, schema.design? = some (block, design) →
        catalog.entity = some entity → ∃ values,
          readDesignRows dialect catalog view block design entity = .ok values ∧
          data.rows = some values) ∧
      (schema.design? = none → data.rows = none)) ∧
    (∀ fields, schema.constants? = some fields →
      ∃ value, catalog.readConstants fields = .ok value ∧ data.constants = some value) ∧
    (schema.constants? = none → data.constants = none) := by
  rw [read] at h
  split at h
  · -- with a design, its rows come first and the constants after them
    next block design entity hdesign hentity =>
    obtain ⟨_, hrows, h⟩ := bind_eq_ok.mp h
    obtain ⟨values, hvalues, rfl⟩ := map_eq_ok.mp hrows
    obtain ⟨hdata, hrest⟩ := constants_of_eq_ok (fun hnone => by rw [hnone]; rfl)
      (fun fields hfields => by rw [hfields]; rfl) h
    refine ⟨⟨?_, ?_⟩, hrest⟩
    · intro block' design' entity' hdesign' hentity'
      rw [hdesign] at hdesign'
      rw [hentity] at hentity'
      cases hdesign'
      cases hentity'
      exact ⟨values, hvalues, hdata⟩
    · intro hnone
      rw [hdesign] at hnone
      cases hnone
  · next hother =>
    obtain ⟨hdata, hrest⟩ := constants_of_eq_ok (fun hnone => by rw [hnone]; rfl)
      (fun fields hfields => by rw [hfields]; rfl) h
    refine ⟨⟨?_, fun _ => hdata⟩, hrest⟩
    intro block design entity hdesign hentity
    exact (hother block design entity hdesign hentity).elim

/-- **The data of a sheet is rendered as its document.** -/
theorem rendersDocument_of_read {others : List Schema} {naming : NameStyle}
    (hcatalog : Catalog.ofSchemas schema others naming = .ok catalog)
    (hdistinct : catalog.DistinctNames) (h : read dialect schema catalog view = .ok data) :
    schema.RendersDocument dialect catalog view (data.document? catalog) := by
  obtain ⟨-, scope, hmade⟩ := Catalog.madeIn_of_ofSchemas hcatalog
  obtain ⟨⟨hrows, hnoRows⟩, hconstants, hnoConstants⟩ := read_eq_ok h
  -- a design has a shape, and its rows are read and rendered by it
  have hrowsJson : ∀ block design, schema.design? = some (block, design) →
      ∃ tree, data.rowsJson? catalog = some tree ∧
        catalog.RendersRows dialect view block tree := by
    intro block design hdesign
    obtain ⟨entity, hentity⟩ := Catalog.exists_entityShape hmade.entity hdesign
    obtain ⟨values, hvalues, hdata⟩ := hrows block design entity hdesign hentity
    refine ⟨_, ?_, rendersRows_of_readDesignRows hdistinct hentity hvalues⟩
    rw [rowsJson?, hdata, hentity]
    rfl
  -- so are the constants, one value for each field of their shape
  have hconstantsJson : ∀ fields, schema.constants? = some fields →
      ∃ tree, data.constantsJson? catalog = some tree ∧ catalog.RendersConstants fields tree := by
    intro fields hfields
    obtain ⟨value, hvalue, hdata⟩ := hconstants fields hfields
    have hlength : fields.length = catalog.constants.fields.length := by
      have hnames := Catalog.names_of_constantShape hmade.constants hfields
      simpa [Shape.names] using (congrArg List.length hnames).symm
    have hconforms := Catalog.readConstants_conforms hdistinct hlength hvalue
    refine ⟨_, ?_, value, hvalue,
      Catalog.rendersRecord_of_rowConforms hdistinct hdistinct.2.1 hconforms⟩
    rw [constantsJson?, hdata, Option.map_some]
  -- the document has one part for each of the two that the sheet has
  rw [document?]
  cases hdesign : schema.design? with
  | none =>
    have hnone : data.rowsJson? catalog = none := by
      rw [rowsJson?, hnoRows hdesign]
      rfl
    rw [hnone]
    cases hfields : schema.constants? with
    | none =>
      rw [constantsJson?, hnoConstants hfields]
      exact .nothing hdesign hfields
    | some fields =>
      obtain ⟨tree, htree, hrenders⟩ := hconstantsJson fields hfields
      rw [htree]
      exact .constants hdesign hfields hrenders
  | some found =>
    obtain ⟨block, design⟩ := found
    obtain ⟨rows, hrows, hrenders⟩ := hrowsJson block design hdesign
    rw [hrows]
    cases hfields : schema.constants? with
    | none =>
      rw [constantsJson?, hnoConstants hfields]
      exact .rows hdesign hfields hrenders
    | some fields =>
      obtain ⟨tree, htree, hconstantRenders⟩ := hconstantsJson fields hfields
      rw [htree]
      exact .both hdesign hfields hconstantRenders hrenders

end SheetValues

/-! ### Sheets that compile -/

namespace Schema

theorem design?_eq_none_iff {schema : Schema} :
    schema.design? = none ↔ ∀ block ∈ schema.blocks, block.kind ≠ .design := by
  rw [design?, List.findSome?_eq_none_iff]
  refine forall₂_congr fun block _ => ?_
  rw [Block.kind]
  cases block.body <;> simp [BlockContent.kind]

theorem constants?_eq_none_iff {schema : Schema} :
    schema.constants? = none ↔ ∀ block ∈ schema.blocks, block.kind ≠ .constant := by
  rw [constants?, List.findSome?_eq_none_iff]
  refine forall₂_congr fun block _ => ?_
  rw [Block.kind]
  cases block.body <;> simp [BlockContent.kind]

/-- There is a document exactly when there are rows or constants. -/
theorem RendersDocument.eq_none_iff {schema : Schema} {dialect : Dialect} {catalog : Catalog}
    {view : View} {document : Option Json}
    (h : schema.RendersDocument dialect catalog view document) :
    document = none ↔ schema.design? = none ∧ schema.constants? = none := by
  cases h with
  | nothing hdesign hconstants => simp [hdesign, hconstants]
  | rows hdesign _ _ => simp [hdesign]
  | constants _ hconstants _ => simp [hconstants]
  | both hdesign _ _ _ => simp [hdesign]

end Schema

theorem Settings.charge_eq_ok {α : Type} {sheet : String} {x : Except Fault α} {a : α} :
    charge sheet x = .ok a ↔ x = .ok a := by
  cases x with
  | error fault => simp [charge]
  | ok b => simp [charge]

/-- What a sheet that compiles is compiled to. -/
theorem Settings.compileSheet_eq_ok {settings : Settings} {schema : Schema} {grid : Grid}
    {schemas : List Schema} {output : SheetOutput} :
    settings.compileSheet schema grid schemas = .ok output ↔ ∃ dialect catalog values,
      settings.dialect = .ok dialect ∧
      Catalog.ofSchemas schema schemas settings.names = .ok catalog ∧
      SheetValues.read dialect schema catalog grid.view = .ok values ∧
      output = {
        name := schema.sheet
        className := CSharp.className catalog.naming schema.sheet
        code := CSharp.sheetFile schema catalog settings.platforms
        data := (values.document? catalog).map Json.pretty
        warnings := CSharp.warnings schema } := by
  constructor
  · intro h
    rw [compileSheet] at h
    obtain ⟨dialect, hdialect, h⟩ := bind_eq_ok.mp h
    obtain ⟨catalog, hcatalog, h⟩ := bind_eq_ok.mp h
    obtain ⟨values, hvalues, h⟩ := bind_eq_ok.mp h
    cases h
    exact ⟨dialect, catalog, values, hdialect, charge_eq_ok.mp hcatalog,
      charge_eq_ok.mp hvalues, rfl⟩
  · rintro ⟨dialect, catalog, values, hdialect, hcatalog, hvalues, rfl⟩
    rw [compileSheet, hdialect, hcatalog]
    show (charge schema.sheet (SheetValues.read dialect schema catalog grid.view) >>= _) = _
    rw [hvalues]
    rfl

/-- **The document of a sheet that compiles.**  It has one exactly when it has a design or
constants.  Its rows have the fields of the design and its constants are those of the sheet,
in order, and all of it is rendered as the shapes of the sheet say. -/
theorem Settings.compileSheet_rendersDocument {settings : Settings} {schema : Schema} {grid : Grid}
    {schemas : List Schema} {output : SheetOutput} {catalog : Catalog}
    (h : settings.compileSheet schema grid schemas = .ok output)
    (hcatalog : Catalog.ofSchemas schema schemas settings.names = .ok catalog)
    (hdistinct : catalog.DistinctNames) :
    ∃ dialect document, settings.dialect = .ok dialect ∧
      output.data = document.map Json.pretty ∧
      (document = none ↔
        ∀ block ∈ schema.blocks, block.kind ≠ .design ∧ block.kind ≠ .constant) ∧
      (∀ block design, schema.design? = some (block, design) →
        ∃ entity, catalog.entity = some entity ∧
          entity.names = design.fields.map fun field => settings.names.publicName field.name) ∧
      (∀ fields, schema.constants? = some fields →
        catalog.constants.names = fields.map fun field => settings.names.publicName field.name) ∧
      schema.RendersDocument dialect catalog grid.view document := by
  rw [compileSheet, hcatalog] at h
  obtain ⟨dialect, hdialect, h⟩ := bind_eq_ok.mp h
  obtain ⟨_, hsame, h⟩ := bind_eq_ok.mp h
  cases hsame
  obtain ⟨data, hdata, h⟩ := bind_eq_ok.mp h
  cases h
  -- the name of the sheet is added to faults only
  have hread : SheetValues.read dialect schema catalog grid.view = .ok data := by
    cases hvalues : SheetValues.read dialect schema catalog grid.view with
    | error fault => rw [hvalues] at hdata; cases hdata
    | ok values => rw [hvalues] at hdata; cases hdata; rfl
  have hrenders := SheetValues.rendersDocument_of_read hcatalog hdistinct hread
  obtain ⟨hnaming, scope, hmade⟩ := Catalog.madeIn_of_ofSchemas hcatalog
  refine ⟨dialect, _, hdialect, rfl, ?_, ?_, ?_, hrenders⟩
  · rw [hrenders.eq_none_iff, Schema.design?_eq_none_iff, Schema.constants?_eq_none_iff]
    exact ⟨fun h block hblock => ⟨h.1 block hblock, h.2 block hblock⟩,
      fun h => ⟨fun block hblock => (h block hblock).1, fun block hblock => (h block hblock).2⟩⟩
  · intro block design hdesign
    obtain ⟨entity, hentity⟩ := Catalog.exists_entityShape hmade.entity hdesign
    have hshape := hmade.entity
    rw [hentity, hnaming] at hshape
    exact ⟨entity, hentity, Catalog.names_of_entityShape hshape hdesign⟩
  · intro fields hfields
    have hshape := hmade.constants
    rw [hnaming] at hshape
    exact Catalog.names_of_constantShape hshape hfields

/-! ### A sheet with rows and constants -/

namespace Deck

/-- Rows with a record that may be left out and a list that may be absent, and constants. -/
def schema : Schema := ⟨"Deck", [
  ⟨some "Note", [], none, ⟨8, 0⟩, .record ⟨false, [
    ⟨"Text", .scalar .string, false, none, ⟨10, 0⟩, ⟨10, 1⟩⟩,
    ⟨"Rank", .nullable (.scalar .int), true, none, ⟨11, 0⟩, ⟨11, 1⟩⟩]⟩⟩,
  ⟨none, [], none, ⟨12, 0⟩, .constant [
    ⟨"Limit", .scalar .int, "3", none, ⟨14, 0⟩, ⟨14, 1⟩, ⟨14, 2⟩⟩]⟩,
  ⟨none, [], none, ⟨0, 0⟩, .design ⟨[], [
    ⟨"Id", .scalar .int, true, none, false, none, ⟨2, 0⟩, ⟨2, 1⟩⟩,
    ⟨"Note", .named "Note", false, none, false, none, ⟨3, 0⟩, ⟨3, 1⟩⟩,
    ⟨"Marks", .nullable (.list (.scalar .int)), false, none, false, none, ⟨4, 0⟩, ⟨4, 1⟩⟩]⟩⟩]⟩

def grid : Grid := ⟨#[
  #[some "[Design]", none],
  #[some "[Name]", none],
  #[some "Id", some "Note.Text"],
  #[some "[Data]", none],
  #[some "1", some "first"],
  #[some "2", some "second"]]⟩

def catalog : Catalog :=
  ⟨⟨.pascal, {}⟩, [],
    [("Note", ⟨[⟨"Text", "Text", .scalar .string, false⟩,
      ⟨"Rank", "Rank", .nullable (.scalar .int), true⟩]⟩)], [],
    some ⟨[⟨"Id", "Id", .scalar .int, false⟩, ⟨"Note", "Note", .record "Note", false⟩,
      ⟨"Marks", "Marks", .nullable (.list (.scalar .int)), false⟩]⟩,
    ⟨[⟨"Limit", "Limit", .scalar .int, false⟩]⟩⟩

/-- The sheet compiles, and its document has constants and rows. -/
theorem compileSheet_deck : ∃ output document,
    ({} : Settings).compileSheet schema grid [schema] = .ok output ∧
      output.data = some (Json.pretty document) ∧
      schema.RendersDocument default catalog grid.view (some document) := by
  obtain ⟨output, houtput⟩ : ∃ output,
      ({} : Settings).compileSheet schema grid [schema] = .ok output :=
    exists_ok_of_isOk (by decide +kernel)
  obtain ⟨dialect, document, hdialect, hdata, hnone, -, -, hrenders⟩ :=
    Settings.compileSheet_rendersDocument houtput rfl (by decide : catalog.DistinctNames)
  cases hdialect
  cases document with
  | none => exact absurd (hnone.mp rfl) (by decide)
  | some document => exact ⟨output, document, houtput, hdata, hrenders⟩

end Deck
end TypedSheets

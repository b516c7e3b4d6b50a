import TypedSheets.Proofs.Document
import TypedSheets.Proofs.Resolution
import TypedSheets.Proofs.RowTyping

/-!
# What follows for paths and documents

A catalog names nothing outside it.  So no path meets a record without a shape, and none is
written without one.

A catalog fails only over a type that the sheet reaches: one of its own, or one of a record
that such a type names.

## Main definitions

* `Catalog.Knows` — that a catalog has all that a type names.
* `Value.Untyped` — values with a record that is written without a shape.
* `Schema.Reaches`, `Schema.TypeAt` — the types that a sheet reaches, and those it writes itself.

## Main results

* `Value.untyped_iff` — **a record is written without a shape where a further shape could
  change what is written.**
* `Catalog.Closed.ofPath_ne_undefinedRecord`, `Catalog.Closed.not_untyped` — every record on
  a path, and every record that is written, has a shape.
* `Catalog.MadeIn.exists_of_reaches` — every type that a sheet reaches is in its catalog.
* `Catalog.exists_of_ofSchemas_error` — what a catalog fails over.
* `Catalog.ofSchemas_closed` — **catalogs are closed, with what follows.**
-/

namespace TypedSheets

namespace Catalog

variable {scope : Scope}

/-! ### Types whose names a catalog knows -/

/-- That a catalog has a shape for every record that a type names, and every enumeration. -/
def Knows (catalog : Catalog) (type : ResolvedType) : Prop :=
  (∀ name ∈ type.recordNames, ∃ shape, catalog.record? name = some shape) ∧
    ∀ name ∈ type.enumNames, ∃ block, catalog.enum? name = some block

section Knows

variable {schema : Schema} {others : List Schema} {catalog : Catalog}

theorem Closed.knows (h : catalog.Closed schema others scope) {shape : Shape}
    (hshape : shape ∈ catalog.shapes) {field : Field} (hfield : field ∈ shape.fields) :
    catalog.Knows field.type := by
  constructor
  · intro name hname
    obtain ⟨_, found, -, hfound, -⟩ :=
      h.records shape hshape name ((Shape.mem_namesOf .record).mpr ⟨field, hfield, hname⟩)
    exact ⟨found, hfound⟩
  · intro name hname
    obtain ⟨block, -, hblock⟩ :=
      h.enums shape hshape name ((Shape.mem_namesOf .enum).mpr ⟨field, hfield, hname⟩)
    exact ⟨block, hblock⟩

theorem Knows.bare {type : ResolvedType} (h : catalog.Knows type) : catalog.Knows type.bare := by
  rw [Knows, ResolvedType.recordNames_bare, ResolvedType.enumNames_bare]
  exact h

theorem Knows.exists_shape {type : ResolvedType} (h : catalog.Knows type) {name : String}
    (hname : type.bare = .record name) : ∃ shape, catalog.record? name = some shape := by
  have hbare := h.bare
  rw [hname] at hbare
  exact hbare.1 name (List.mem_singleton.mpr rfl)

theorem Knows.exists_enum {type : ResolvedType} (h : catalog.Knows type) {name : String}
    (hname : type.bare = .enum name) : ∃ block, catalog.enum? name = some block := by
  have hbare := h.bare
  rw [hname] at hbare
  exact hbare.2 name (List.mem_singleton.mpr rfl)

theorem Knows.element {type element : ResolvedType} (h : catalog.Knows type)
    (helement : type.bare = .list element) : catalog.Knows element := by
  have hbare := h.bare
  rw [helement] at hbare
  exact hbare

/-! ### Paths -/

/-- From what a catalog knows, every segment leads to what it knows. -/
theorem Closed.knows_of_allowed (h : catalog.Closed schema others scope) {entity : Shape}
    (hentity : entity ∈ catalog.entity) {current : Option ResolvedType}
    (hcurrent : ∀ type ∈ current, catalog.Knows type) {step : Step}
    (hstep : Step.Allowed catalog entity current step) : catalog.Knows step.type := by
  cases hstep with
  | row hfield => exact h.knows (mem_shapes_iff.mpr (Or.inl hentity)) hfield
  | field hshape hfield => exact h.knows (mem_shapes_of_record? hshape) hfield
  | index _ => exact (hcurrent _ rfl).element rfl

theorem Closed.ofSegments_ne_undefinedRecord (h : catalog.Closed schema others scope)
    {entity : Shape} (hentity : entity ∈ catalog.entity) (name : String) :
    ∀ (segments : List String) {current : Option ResolvedType},
      (∀ type ∈ current, catalog.Knows type) →
        Step.ofSegments catalog entity current segments ≠ .error (.undefinedRecord name) := by
  intro segments
  induction segments with
  | nil => intro current _ herror; cases herror
  | cons segment rest ih =>
    intro current hcurrent herror
    rw [Step.ofSegments] at herror
    rcases bind_eq_error.mp herror with hsegment | ⟨step, hstep, herror⟩
    · -- a segment misses a record only where the path has come to one without a shape
      rw [Step.ofSegment] at hsegment
      split at hsegment
      · rw [Step.ofIndex] at hsegment
        split at hsegment
        · cases hsegment
        · split at hsegment <;> cases hsegment
      · rcases bind_eq_error.mp hsegment with hshape | ⟨shape, -, hfield⟩
        · rw [Step.shapeAt.eq_def] at hshape
          split at hshape
          · cases hshape
          · next record =>
            obtain ⟨shape, hfound⟩ := (hcurrent _ rfl).exists_shape rfl
            rw [hfound] at hshape
            cases hshape
          · cases hshape
        · split at hfield <;> cases hfield
    · have hknown := h.knows_of_allowed hentity hcurrent (Step.allowed_of_ofSegment hstep)
      rcases bind_eq_error.mp herror with hrest | ⟨later, -, herror⟩
      · refine ih ?_ hrest
        intro type htype
        cases htype
        exact hknown.bare
      · cases herror

/-- **No path meets a record without a shape.** -/
theorem Closed.ofPath_ne_undefinedRecord (h : catalog.Closed schema others scope) {entity : Shape}
    (hentity : entity ∈ catalog.entity) (col : Nat) (path name : String) :
    Plan.ofPath catalog entity col path ≠ .error (.undefinedRecord name) := by
  intro herror
  rw [Plan.ofPath] at herror
  rcases bind_eq_error.mp herror with hsteps | ⟨steps, -, herror⟩
  · exact h.ofSegments_ne_undefinedRecord hentity name _ (by simp) hsteps
  · split at herror <;> cases herror

end Knows

end Catalog

/-! ### Documents -/

/-- Values with a record somewhere that is written without a shape, since the catalog has
none for its type. -/
inductive Value.Untyped (catalog : Catalog) : ResolvedType → Value → Prop
  | here {type : ResolvedType} {name : String} {fields : List (String × Value)}
      (htype : type.bare = .record name) (hnone : catalog.record? name = none) :
      Untyped catalog type (.record fields)
  | item {type element : ResolvedType} {items : List Value} {value : Value}
      (htype : type.bare = .list element) (hmem : value ∈ items)
      (h : Untyped catalog element value) : Untyped catalog type (.list items)
  | field {type : ResolvedType} {name : String} {shape : Shape} {found : Field}
      {fields : List (String × Value)} (htype : type.bare = .record name)
      (hshape : catalog.record? name = some shape) (hmem : found ∈ shape.fields)
      (h : Untyped catalog found.type ((Value.record fields).slot found.emitted)) :
      Untyped catalog type (.record fields)

theorem Value.Untyped.isNull_eq_false {catalog : Catalog} {type : ResolvedType} {value : Value}
    (h : value.Untyped catalog type) : value.isNull = false := by
  cases h <;> rfl

/-- That a catalog has all shapes of another one. -/
def Catalog.Extends (larger catalog : Catalog) : Prop :=
  ∀ name shape, catalog.record? name = some shape → larger.record? name = some shape

/-- A catalog with a shape for one more record. -/
def Catalog.withRecord (catalog : Catalog) (name : String) (shape : Shape) : Catalog :=
  { catalog with records := catalog.records ++ [(catalog.declaredName name, shape)] }

theorem Catalog.record?_withRecord (catalog : Catalog) (name : String) (shape : Shape)
    (other : String) :
    (catalog.withRecord name shape).record? other = (catalog.record? other).or
      (if catalog.declaredName name = catalog.declaredName other then some shape else none) := by
  have hget : (catalog.withRecord name shape).record? other
      = OrderedMap.get? (catalog.records ++ [(catalog.declaredName name, shape)])
          (catalog.declaredName other) := rfl
  rw [hget, OrderedMap.get?_append, record?]
  rfl

/-- A record without a shape is written as it is. -/
theorem Value.typed_of_record?_eq_none {catalog : Catalog} {type : ResolvedType} {name : String}
    (htype : type.bare = .record name) (hnone : catalog.record? name = none)
    (fields : List (String × Value)) :
    (Value.record fields).typed catalog type = .obj (plainFields fields) := by
  simp only [typed, htype, hnone]

/-- Whether a field is left out does not depend on the catalog. -/
theorem Field.written?_congr_iff {catalog larger : Catalog} {field : Field} {value : Value} :
    field.written? larger value = field.written? catalog value ↔
      ((field.optional && value.isNull) = false →
        value.typed larger field.type = value.typed catalog field.type) := by
  rw [written?, written?]
  cases field.optional && value.isNull <;> simp

theorem Shape.members_congr_iff {catalog larger : Catalog} (fields : List (String × Value)) :
    ∀ {shape : Shape}, shape.members (Value.writers larger fields)
        = shape.members (Value.writers catalog fields) ↔
      ∀ field ∈ shape.fields, field.written? larger ((Value.record fields).slot field.emitted)
        = field.written? catalog ((Value.record fields).slot field.emitted) := by
  intro shape
  rw [members_writers, members_writers]
  induction shape.fields with
  | nil => simp
  | cons field rest ih =>
    rw [List.forall_mem_cons, ← ih, List.filterMap_cons, List.filterMap_cons, Field.written?,
      Field.written?]
    -- both catalogs leave the field out, or none of them
    by_cases hout : (field.optional && ((Value.record fields).slot field.emitted).isNull) = true
    · simp [hout]
    · simp [hout]

section Larger

variable {catalog larger : Catalog}

mutual

/-- What is written for a value whose records all have shapes depends on no other shape. -/
theorem Value.typed_eq_of_not_untyped (hle : larger.Extends catalog) : ∀ (value : Value)
    {type : ResolvedType}, ¬ value.Untyped catalog type →
      value.typed larger type = value.typed catalog type
  | .null, _, _ => by rw [typed, typed]
  | .bool _, _, _ => by rw [typed, typed]
  | .int _, _, _ => by rw [typed, typed]
  | .uint _, _, _ => by rw [typed, typed]
  | .float _, _, _ => by rw [typed, typed]
  | .str _, _, _ => by rw [typed, typed]
  | .enum _, _, _ => by rw [typed, typed]
  | .list items, type, h => by
    cases htype : type.bare with
    | list element =>
      rw [typed_list htype, typed_list htype, typedList_eq_map, typedList_eq_map]
      congr 1
      refine List.map_congr_left ?_
      intro item hitem
      exact typed_eq_of_mem_items hle items hitem fun huntyped => h (.item htype hitem huntyped)
    | _ => simp only [typed, htype]
  | .record fields, type, h => by
    cases htype : type.bare with
    | record name =>
      cases hshape : catalog.record? name with
      | none => exact absurd (.here htype hshape) h
      | some shape =>
        rw [typed_record htype hshape, typed_record htype (hle name shape hshape),
          (Shape.members_congr_iff fields).mpr]
        intro field hfield
        -- the shape stays the same in a larger catalog, so only the members may differ
        refine Field.written?_congr_iff.mpr fun _ => ?_
        cases hget : OrderedMap.get? fields field.emitted with
        | none =>
          have hnull : (Value.record fields).slot field.emitted = .null := by
            rw [slot, get?, fields?, Option.bind_some, hget, Option.getD_none]
          rw [hnull, typed, typed]
        | some value =>
          rw [slot_record hget]
          refine typed_eq_of_mem_fields hle fields (OrderedMap.mem_of_get? hget) ?_
          intro huntyped
          rw [← slot_record hget] at huntyped
          exact h (.field htype hshape hfield huntyped)
    | _ => simp only [typed, htype]

theorem Value.typed_eq_of_mem_items (hle : larger.Extends catalog) : ∀ (items : List Value)
    {item : Value}, item ∈ items → ∀ {type : ResolvedType}, ¬ item.Untyped catalog type →
      item.typed larger type = item.typed catalog type
  | first :: items, _, hitem, _, h => by
    rcases List.mem_cons.mp hitem with heq | hitem
    · rw [heq] at h ⊢
      exact typed_eq_of_not_untyped hle first h
    · exact typed_eq_of_mem_items hle items hitem h

theorem Value.typed_eq_of_mem_fields (hle : larger.Extends catalog) :
    ∀ (fields : List (String × Value)) {name : String} {value : Value}, (name, value) ∈ fields →
      ∀ {type : ResolvedType}, ¬ value.Untyped catalog type →
        value.typed larger type = value.typed catalog type
  | (_, first) :: fields, _, _, hfield, _, h => by
    rcases List.mem_cons.mp hfield with heq | hfield
    · cases heq
      exact typed_eq_of_not_untyped hle first h
    · exact typed_eq_of_mem_fields hle fields hfield h

end

/-- A shape for a record that has none changes what is written. -/
theorem Value.Untyped.exists_extends {type : ResolvedType} {value : Value}
    (h : value.Untyped catalog type) :
    ∃ larger : Catalog, larger.Extends catalog ∧
      value.typed larger type ≠ value.typed catalog type := by
  induction h with
  | @here type name fields htype hnone =>
    -- one shape without fields and one with a field: not both give what is written now
    have hextends : ∀ shape, (catalog.withRecord name shape).Extends catalog := by
      intro shape other found hfound
      rw [Catalog.record?_withRecord, hfound, Option.some_or]
    have htyped : ∀ shape, (Value.record fields).typed (catalog.withRecord name shape) type
        = .obj (shape.members (writers (catalog.withRecord name shape) fields)) := by
      intro shape
      refine typed_record htype ?_ fields
      rw [Catalog.record?_withRecord, hnone, Option.none_or, if_pos rfl]
    rw [typed_of_record?_eq_none htype hnone]
    cases fields with
    | nil =>
      refine ⟨_, hextends ⟨[⟨name, name, .scalar .int, false⟩]⟩, ?_⟩
      rw [htyped]
      intro heq
      cases heq
    | cons first rest =>
      refine ⟨_, hextends ⟨[]⟩, ?_⟩
      rw [htyped]
      intro heq
      cases heq
  | item htype hmem _ ih =>
    obtain ⟨larger, hextends, hne⟩ := ih
    refine ⟨larger, hextends, fun heq => hne ?_⟩
    rw [typed_list htype, typed_list htype, typedList_eq_map, typedList_eq_map,
      Json.arr.injEq] at heq
    exact List.map_inj_left.mp heq _ hmem
  | field htype hshape hmem hinner ih =>
    obtain ⟨larger, hextends, hne⟩ := ih
    refine ⟨larger, hextends, fun heq => hne ?_⟩
    rw [typed_record htype hshape, typed_record htype (hextends _ _ hshape), Json.obj.injEq] at heq
    refine Field.written?_congr_iff.mp ((Shape.members_congr_iff _).mp heq _ hmem) ?_
    rw [hinner.isNull_eq_false, Bool.and_false]

/-- **A record is written without a shape exactly where a further shape could change what is
written.** -/
theorem Value.untyped_iff {type : ResolvedType} {value : Value} :
    value.Untyped catalog type ↔ ∃ larger : Catalog, larger.Extends catalog ∧
      value.typed larger type ≠ value.typed catalog type := by
  constructor
  · exact Untyped.exists_extends
  · rintro ⟨larger, hextends, hne⟩
    by_contra h
    exact hne (typed_eq_of_not_untyped hextends value h)

end Larger

/-- **No record is written without a shape.** -/
theorem Catalog.Closed.not_untyped {catalog : Catalog} {schema : Schema} {others : List Schema}
    {scope : Scope} (h : catalog.Closed schema others scope) {type : ResolvedType} {value : Value}
    (hknows : catalog.Knows type) : ¬ value.Untyped catalog type := by
  intro huntyped
  induction huntyped with
  | here htype hnone =>
    obtain ⟨shape, hshape⟩ := hknows.exists_shape htype
    rw [hnone] at hshape
    cases hshape
  | item htype _ _ ih => exact ih (hknows.element htype)
  | field htype hshape hmem _ ih => exact ih (h.knows (mem_shapes_of_record? hshape) hmem)

/-! ### What a catalog fails over -/

/-- The types that a sheet reaches: those of its own fields, and those of the fields of a
record that such a type names. -/
inductive Schema.Reaches (schema : Schema) (scope : Scope) : WrittenType → Prop
  | design {block : Block} {design : DesignDecl} {field : EntityField}
      (hdesign : schema.design? = some (block, design)) (hfield : field ∈ design.fields) :
      Reaches schema scope field.type
  | constant {fields : List ConstantDecl} {field : ConstantDecl}
      (hconstants : schema.constants? = some fields) (hfield : field ∈ fields) :
      Reaches schema scope field.type
  | record {entry : Block × RecordDecl} {field : FieldDecl} (hrecord : entry ∈ schema.records)
      (hfield : field ∈ entry.2.fields) : Reaches schema scope field.type
  | through {type : WrittenType} {name key : String} {record : RecordDecl} {field : FieldDecl}
      (h : Reaches schema scope type) (hname : type.leaf = .named name)
      (hmeaning : scope.meaning? name = some (key, .record record))
      (hfield : field ∈ record.fields) : Reaches schema scope field.type

/-- The types that a sheet writes itself, each with its cell: those of its design, of its
constants and of its records. -/
inductive Schema.TypeAt (schema : Schema) : WrittenType → Cell → Prop
  | design {block : Block} {design : DesignDecl} {field : EntityField}
      (hdesign : schema.design? = some (block, design)) (hfield : field ∈ design.fields) :
      TypeAt schema field.type field.typeCell
  | constant {fields : List ConstantDecl} {field : ConstantDecl}
      (hconstants : schema.constants? = some fields) (hfield : field ∈ fields) :
      TypeAt schema field.type field.typeCell
  | record {entry : Block × RecordDecl} {field : FieldDecl} (hrecord : entry ∈ schema.records)
      (hfield : field ∈ entry.2.fields) : TypeAt schema field.type field.typeCell

theorem Schema.TypeAt.reaches {schema : Schema} {type : WrittenType} {cell : Cell}
    (h : schema.TypeAt type cell) (scope : Scope) : schema.Reaches scope type := by
  cases h with
  | design hdesign hfield => exact .design hdesign hfield
  | constant hconstants hfield => exact .constant hconstants hfield
  | record hrecord hfield => exact .record hrecord hfield

namespace Catalog

variable {scope : Scope} {naming : NameStyle} {schema : Schema} {others : List Schema}

/-- The fields of a record are reached once a type that names it is. -/
theorem reaches_of_resolvedFrom (hscope : Scope.ofSchemas schema others naming = .ok scope)
    {type : WrittenType} (hreaches : schema.Reaches scope type) {resolved : ResolvedType}
    (hresolved : ResolvedFrom scope type resolved) {name : String}
    (hname : name ∈ resolved.recordNames) {record : RecordDecl}
    (hrecord : scope.record? name = some record) {field : FieldDecl}
    (hfield : field ∈ record.fields) : schema.Reaches scope field.type := by
  obtain ⟨cell, inner, hinner, hnames⟩ := hresolved
  have hname' : name ∈ inner.namesOf .record := by
    rw [← hnames]
    exact hname
  obtain ⟨written, _ | record', ⟨⟩, hwritten, hmeaning⟩ :=
    Scope.exists_of_mem_namesOf hinner hname'
  have hsees := (Scope.record?_eq_some_iff hscope).mp hrecord
  -- the name in the type and its key stand for one record
  obtain rfl : record' = record := by
    simpa using (Scope.sees?_of_meaning? hscope hmeaning).symm.trans hsees
  exact .through hreaches hwritten hmeaning hfield

/-- All fields of the records that are pending at the start are reached. -/
theorem reaches_of_mem_pendingRecords (hscope : Scope.ofSchemas schema others naming = .ok scope)
    {entity : Option Shape} {constants : Shape}
    (hentity : entityShape scope naming schema = .ok entity)
    (hconstants : constantShape scope naming schema = .ok constants) {name : String}
    (hname : name ∈ pendingRecords schema entity constants) {record : RecordDecl}
    (hrecord : scope.record? name = some record) {field : FieldDecl}
    (hfield : field ∈ record.fields) : schema.Reaches scope field.type := by
  rw [pendingRecords, List.mem_append, List.mem_append] at hname
  rcases hname with (hown | hdesign) | hconstant
  · obtain ⟨entry, hentry, rfl⟩ := List.mem_map.mp hown
    have hdeclared : (entry.1, Declaration.record entry.2) ∈ schema.declarations :=
      List.mem_append_right _ (List.mem_map.mpr ⟨entry, hentry, rfl⟩)
    -- an own record hides those of other sheets
    have hsees := (Scope.record?_eq_some_iff hscope).mp hrecord
    rw [Scope.sees?_of_mem_declarations hscope hdeclared] at hsees
    cases hsees
    exact .record hentry hfield
  · cases hshape : entity with
    | none =>
      rw [hshape] at hdesign
      cases hdesign
    | some shape =>
      rw [hshape, Option.getD_some] at hdesign
      obtain ⟨found, hfound, hname⟩ := (Shape.mem_namesOf .record).mp hdesign
      obtain ⟨_, _, decl, hdesign, hdecl, hresolved⟩ := exists_of_mem_entity hentity hshape hfound
      exact reaches_of_resolvedFrom hscope (.design hdesign hdecl)
        (resolvedFrom_of_designField hresolved) hname hrecord hfield
  · obtain ⟨found, hfound, hname⟩ := (Shape.mem_namesOf .record).mp hconstant
    obtain ⟨_, decl, hdecls, hdecl, hresolved⟩ := exists_of_mem_constants hconstants hfound
    exact reaches_of_resolvedFrom hscope (.constant hdecls hdecl)
      (resolvedFrom_of_constantField hresolved) hname hrecord hfield

/-- A record that the name in a type of the catalog stands for has a shape. -/
theorem MadeIn.exists_of_resolvedFrom {catalog : Catalog} (h : catalog.MadeIn schema others scope)
    {outer : Shape} (houter : outer ∈ catalog.shapes) {field : Field}
    (hfield : field ∈ outer.fields) {type : WrittenType}
    (hresolved : ResolvedFrom scope type field.type) {name key : String} {record : RecordDecl}
    (hname : type.leaf = .named name)
    (hmeaning : scope.meaning? name = some (key, .record record)) :
    ∃ shape, catalog.record? key = some shape ∧
      List.Forall₂ (FieldDecl.ResolvesTo scope catalog.naming) record.fields shape.fields := by
  obtain ⟨cell, inner, hinner, hnames⟩ := hresolved
  obtain ⟨_, _, hmeaning', hkey⟩ := Scope.meaning?_of_resolve hinner hname
  cases hmeaning.symm.trans hmeaning'
  rw [← hnames] at hkey
  have hmem := (Shape.mem_namesOf .record).mpr ⟨field, hfield, hkey⟩
  obtain ⟨record', shape, hsees, hshape, hfields⟩ := h.closed.records outer houter key hmem
  obtain rfl : record = record' := by
    simpa using (Scope.sees?_of_meaning? h.inScope hmeaning).symm.trans hsees
  exact ⟨shape, hshape, hfields⟩

/-- **Every type that a sheet reaches is in its catalog**: a field of some shape comes from
it. -/
theorem MadeIn.exists_of_reaches {catalog : Catalog} (h : catalog.MadeIn schema others scope)
    {type : WrittenType} (hreaches : schema.Reaches scope type) :
    ∃ shape ∈ catalog.shapes, ∃ field ∈ shape.fields, ResolvedFrom scope type field.type := by
  induction hreaches with
  | @design block design decl hdesign hdecl =>
    have hentity := h.entity
    rw [entityShape, hdesign] at hentity
    obtain ⟨fields, hfields, hentity⟩ := bind_eq_ok.mp hentity
    obtain ⟨field, hfield, hresolved⟩ :=
      exists_right_of_forall₂ (mapM_eq_ok_iff.mp hfields) hdecl
    have hshape : ⟨fields⟩ ∈ catalog.entity := (Except.ok.inj hentity).symm
    exact ⟨⟨fields⟩, mem_shapes_iff.mpr (Or.inl hshape), field, hfield,
      resolvedFrom_of_designField hresolved⟩
  | @constant decls decl hdecls hdecl =>
    have hconstants := h.constants
    rw [constantShape, hdecls] at hconstants
    obtain ⟨fields, hfields, hconstants⟩ := bind_eq_ok.mp hconstants
    obtain ⟨field, hfield, hresolved⟩ :=
      exists_right_of_forall₂ (mapM_eq_ok_iff.mp hfields) hdecl
    have hshape : ⟨fields⟩ = catalog.constants := Except.ok.inj hconstants
    exact ⟨⟨fields⟩, mem_shapes_iff.mpr (Or.inr (Or.inl hshape)), field, hfield,
      resolvedFrom_of_constantField hresolved⟩
  | record hrecord hdecl =>
    obtain ⟨shape, hshape, hfields⟩ := h.closed.own _ hrecord
    obtain ⟨field, hfield, hresolves⟩ := exists_right_of_forall₂ hfields hdecl
    exact ⟨shape, mem_shapes_of_record? hshape, field, hfield, _, _, hresolves.type, fun _ => rfl⟩
  | @through type name key record decl _ hname hmeaning hdecl ih =>
    -- the name in the type is one of the shape it is in, and catalogs are closed
    obtain ⟨outer, houter, field, hfield, hresolved⟩ := ih
    obtain ⟨shape, hshape, hfields⟩ :=
      h.exists_of_resolvedFrom houter hfield hresolved hname hmeaning
    obtain ⟨field', hfield', hresolves⟩ := exists_right_of_forall₂ hfields hdecl
    exact ⟨shape, mem_shapes_of_record? hshape, field', hfield', _, _, hresolves.type,
      fun _ => rfl⟩

/-- A scope fails only over a name that is declared twice. -/
theorem code?_of_ownNames_error {fault : Fault} : ∀ {entries : List (Block × Declaration)}
    {seen : List (String × Cell)}, Scope.ownNames entries seen = .error fault →
      fault.code? = some .e202 := by
  intro entries
  induction entries with
  | nil => intro seen h; cases h
  | cons entry entries ih =>
    intro seen h
    rw [Scope.ownNames] at h
    split at h
    · cases h; rfl
    · rcases bind_eq_error.mp h with hrest | ⟨_, -, h⟩
      · exact ih hrest
      · cases h

/-! The shapes fail over the types of their fields. -/

theorem typeAt_of_entityShape_error {fault : Fault}
    (h : entityShape scope naming schema = .error fault) :
    ∃ type cell, schema.TypeAt type cell ∧ scope.resolve cell type = .error fault := by
  rw [entityShape] at h
  split at h
  · next block design hdesign =>
    rcases bind_eq_error.mp h with hfields | ⟨_, -, hnone⟩
    · obtain ⟨decl, hdecl, herror⟩ := exists_of_mapM_error hfields
      rcases bind_eq_error.mp herror with hresolve | ⟨_, -, hnone⟩
      · exact ⟨decl.type, decl.typeCell, .design hdesign hdecl, hresolve⟩
      · cases hnone
    · cases hnone
  · cases h

theorem typeAt_of_constantShape_error {fault : Fault}
    (h : constantShape scope naming schema = .error fault) :
    ∃ type cell, schema.TypeAt type cell ∧ scope.resolve cell type = .error fault := by
  rcases bind_eq_error.mp h with hfields | ⟨_, -, hnone⟩
  · obtain ⟨decl, hdecl, herror⟩ := exists_of_mapM_error hfields
    rcases bind_eq_error.mp herror with hresolve | ⟨_, -, hnone⟩
    · cases hdecls : schema.constants? with
      | none => simp [hdecls] at hdecl
      | some decls =>
        rw [hdecls, Option.getD_some] at hdecl
        exact ⟨decl.type, decl.typeCell, .constant hdecls hdecl, hresolve⟩
    · cases hnone
  · cases hnone

theorem resolve_of_recordShape_error {fault : Fault} {record : RecordDecl}
    (h : recordShape scope naming record = .error fault) :
    ∃ decl ∈ record.fields, scope.resolve decl.typeCell decl.type = .error fault := by
  rcases bind_eq_error.mp h with hfields | ⟨_, -, hnone⟩
  · obtain ⟨decl, hdecl, herror⟩ := exists_of_mapM_error hfields
    rcases bind_eq_error.mp herror with hresolve | ⟨_, -, hnone⟩
    · exact ⟨decl, hdecl, hresolve⟩
    · cases hnone
  · cases hnone

/-- That a name leads to fields that the sheet reaches only. -/
def ReachesFields (schema : Schema) (scope : Scope) (name : String) : Prop :=
  ∀ record, scope.record? name = some record →
    ∀ field ∈ record.fields, schema.Reaches scope field.type

theorem ReachesFields.step (hscope : Scope.ofSchemas schema others naming = .ok scope)
    {name : String} (h : ReachesFields schema scope name) {record : RecordDecl} {shape : Shape}
    (hrecord : scope.record? name = some record)
    (hshape : recordShape scope naming record = .ok shape) {other : String}
    (hother : other ∈ shape.recordNames) : ReachesFields schema scope other := by
  intro record' hrecord' field hfield
  obtain ⟨found, hfound, hother⟩ := (Shape.mem_namesOf .record).mp hother
  obtain ⟨decl, hdecl, hresolves⟩ :=
    exists_left_of_forall₂ (recordShape_eq_ok_iff.mp hshape) hfound
  exact reaches_of_resolvedFrom hscope (h record hrecord decl hdecl)
    ⟨_, _, hresolves.type, fun _ => rfl⟩ hother hrecord' hfield

/-- A type in a field of a record that is in scope, with its cell, once the design and the
constants of a sheet have their shapes. -/
structure RecordTypeAt (scope : Scope) (naming : NameStyle) (schema : Schema) (type : WrittenType)
    (cell : Cell) : Prop where
  entity : ∃ entity, entityShape scope naming schema = .ok entity
  constants : ∃ constants, constantShape scope naming schema = .ok constants
  field : ∃ name record, scope.record? name = some record ∧
    ∃ field ∈ record.fields, field.type = type ∧ field.typeCell = cell

/-- **A catalog fails over a type that the sheet reaches**, once no name is declared twice: one
of its design or its constants, else one of a record. -/
theorem exists_of_ofSchemas_error {fault : Fault}
    (h : ofSchemas schema others naming = .error fault) (hcode : fault.code? = some .e200) :
    ∃ scope, Scope.ofSchemas schema others naming = .ok scope ∧
      ∃ type cell, schema.Reaches scope type ∧ scope.resolve cell type = .error fault ∧
        (schema.TypeAt type cell ∨ RecordTypeAt scope naming schema type cell) := by
  rw [ofSchemas] at h
  -- the stages in turn: scope, design, constants, records
  rcases bind_eq_error.mp h with hscope | ⟨scope, hscope, h⟩
  · rw [Scope.ofSchemas] at hscope
    rcases bind_eq_error.mp hscope with hown | ⟨_, -, hnone⟩
    · rw [code?_of_ownNames_error hown] at hcode
      cases hcode
    · cases hnone
  refine ⟨scope, hscope, ?_⟩
  rcases bind_eq_error.mp h with hentity | ⟨entity, hentity, h⟩
  · obtain ⟨type, cell, htype, hresolve⟩ := typeAt_of_entityShape_error hentity
    exact ⟨type, cell, htype.reaches scope, hresolve, Or.inl htype⟩
  rcases bind_eq_error.mp h with hconstants | ⟨constants, hconstants, h⟩
  · obtain ⟨type, cell, htype, hresolve⟩ := typeAt_of_constantShape_error hconstants
    exact ⟨type, cell, htype.reaches scope, hresolve, Or.inl htype⟩
  rcases bind_eq_error.mp h with hrecords | ⟨_, -, hnone⟩
  · have hpending : ∀ name ∈ (pendingRecords schema entity constants).reverse,
        ReachesFields schema scope name := by
      intro name hname record hrecord field hfield
      exact reaches_of_mem_pendingRecords hscope hentity hconstants (List.mem_reverse.mp hname)
        hrecord hfield
    obtain ⟨name, record, hreaches, hrecord, hshape⟩ := exists_of_resolveRecords_error
      (fun name record shape hreaches hrecord hshape other =>
        hreaches.step hscope hrecord hshape) _ hpending hrecords
    obtain ⟨decl, hdecl, hresolve⟩ := resolve_of_recordShape_error hshape
    exact ⟨decl.type, decl.typeCell, hreaches record hrecord decl hdecl, hresolve,
      Or.inr ⟨⟨entity, hentity⟩, ⟨constants, hconstants⟩, name, record, hrecord, decl, hdecl, rfl,
        rfl⟩⟩
  · cases hnone

theorem reaches_of_ofSchemas_error {fault : Fault}
    (h : ofSchemas schema others naming = .error fault) (hcode : fault.code? = some .e200) :
    ∃ scope, Scope.ofSchemas schema others naming = .ok scope ∧
      ∃ type cell, schema.Reaches scope type ∧ scope.resolve cell type = .error fault := by
  obtain ⟨scope, hscope, type, cell, hreaches, hresolve, -⟩ := exists_of_ofSchemas_error h hcode
  exact ⟨scope, hscope, type, cell, hreaches, hresolve⟩

/-- **A catalog is closed**, so that no path meets a record without a shape and none is
written without one.  A type that is not defined has a name in it that the sheet sees
nothing under, neither as declared nor as generated, and the sheet reaches it. -/
theorem ofSchemas_closed (schema : Schema) (others : List Schema) (naming : NameStyle) :
    (∀ catalog, ofSchemas schema others naming = .ok catalog →
      ∃ scope, Scope.ofSchemas schema others naming = .ok scope ∧
        catalog.naming = naming ∧ catalog.Closed schema others scope ∧
        (∀ entity ∈ catalog.entity, ∀ col path name,
          Plan.ofPath catalog entity col path ≠ .error (.undefinedRecord name)) ∧
        ∀ shape ∈ catalog.shapes, ∀ field ∈ shape.fields, ∀ value : Value,
          ¬ value.Untyped catalog field.type) ∧
    ∀ fault, ofSchemas schema others naming = .error fault → fault.code? = some .e200 →
      ∃ scope type name cell, Scope.ofSchemas schema others naming = .ok scope ∧
        schema.Reaches scope type ∧ type.leaf = .named name ∧
        fault = .undefinedType name cell ∧ schema.sees? others name = none ∧
        ∀ key declaration, schema.sees? others key = some declaration →
          declaration.generatedName naming key ≠ name := by
  constructor
  · intro catalog h
    obtain ⟨rfl, scope, hmade⟩ := madeIn_of_ofSchemas h
    have hclosed := hmade.closed
    refine ⟨scope, hmade.inScope, rfl, hclosed, ?_, ?_⟩
    · intro entity hentity col path name
      exact hclosed.ofPath_ne_undefinedRecord hentity col path name
    · intro shape hshape field hfield value
      exact hclosed.not_untyped (hclosed.knows hshape hfield)
  · intro fault h hcode
    obtain ⟨scope, hscope, type, cell, hreaches, hresolve⟩ := reaches_of_ofSchemas_error h hcode
    obtain ⟨name, hname, hmeaning, hfault⟩ := Scope.resolve_eq_error_iff.mp hresolve
    obtain ⟨hunseen, hgenerated⟩ := (Scope.meaning?_eq_none_iff hscope).mp hmeaning
    exact ⟨scope, type, name, cell, hscope, hreaches, hname, hfault, hunseen, hgenerated⟩

end Catalog

/-! ### Samples -/

namespace Trees

/-- A sheet whose constants reach, through a record of another sheet, a type that is not
declared. -/
def orphan : Schema := ⟨"Orphan", [
  ⟨none, [], none, ⟨0, 0⟩, .constant [
    ⟨"Top", .nullable (.named "Branch"), "null", none, ⟨2, 0⟩, ⟨2, 1⟩, ⟨2, 2⟩⟩]⟩]⟩

def branches : Schema := ⟨"Branches", [
  ⟨some "Branch", [], none, ⟨0, 0⟩, .record ⟨true, [
    ⟨"Twigs", .list (.named "Twig"), false, none, ⟨2, 0⟩, ⟨2, 1⟩⟩]⟩⟩]⟩

/-- The catalog of trees is closed, though its record names itself; and the type that the
constants lack is reached. -/
theorem ofSchemas_closed_samples :
    (∃ scope, catalog.Closed schema [] scope) ∧
      Catalog.ofSchemas orphan [branches] naming = .error (.undefinedType "Twig" ⟨2, 1⟩) ∧
      ∃ scope type, orphan.Reaches scope type ∧ type.leaf = .named "Twig" := by
  constructor
  · obtain ⟨scope, -, -, hclosed, -⟩ :=
      (Catalog.ofSchemas_closed schema [] naming).1 catalog ofSchemas_schema
    exact ⟨scope, hclosed⟩
  · have herror : Catalog.ofSchemas orphan [branches] naming
        = .error (.undefinedType "Twig" ⟨2, 1⟩) := rfl
    obtain ⟨scope, type, name, cell, -, hreaches, hname, hfault, -⟩ :=
      (Catalog.ofSchemas_closed orphan [branches] naming).2 _ herror rfl
    cases hfault
    exact ⟨herror, scope, type, hreaches, hname⟩

end Trees
end TypedSheets

import Mathlib.Data.List.Perm.Subperm
import TypedSheets.Proofs.Scope

/-!
# Records are resolved until none is left

Records are resolved one after another, and each may name further ones.  When none is left,
every record that a shape of the catalog names has a shape of its own, and every enumeration
is there.

The argument is an invariant of the list of pending names: what a resolved shape names is
resolved or pending.  The rounds suffice because each of them resolves another record of the
scope.

## Main definitions

* `FieldDecl.ResolvesTo` — a declared field and the field of a shape that it becomes.
* `Catalog.Resolving` — the invariant of the pending names.
* `Catalog.shapes`, `Catalog.Closed` — all shapes of a catalog, and that they name nothing
  outside it.
* `Catalog.MadeIn` — a catalog with the scope it was made in.

## Main results

* `Catalog.resolveRecords_resolving` — **the pending names are worked off.**
* `Catalog.madeIn_of_ofSchemas`, `Catalog.MadeIn.closed` — **catalogs are closed.**
-/

namespace TypedSheets

/-- A declared field and the field of a shape that it becomes. -/
structure FieldDecl.ResolvesTo (scope : Scope) (naming : NameStyle) (decl : FieldDecl)
    (field : Field) : Prop where
  name : field.name = decl.name
  emitted : field.emitted = naming.recordField decl.name
  optional : field.optional = decl.optional
  type : scope.resolve decl.typeCell decl.type = .ok field.type

namespace Scope

/-- The names of the records in scope. -/
def recordLabels (scope : Scope) : List String :=
  (scope.declared.filter fun entry => entry.2.record?.isSome).map Prod.fst

theorem length_recordLabels (scope : Scope) : scope.recordLabels.length = scope.recordCount :=
  List.length_map ..

theorem mem_recordLabels {scope : Scope} {name : String} {record : RecordDecl}
    (h : scope.record? name = some record) : name ∈ scope.recordLabels := by
  obtain ⟨declaration, hget, hdeclaration⟩ := Option.bind_eq_some_iff.mp h
  refine List.mem_map.mpr ⟨(name, declaration), List.mem_filter.mpr
    ⟨OrderedMap.mem_of_get? hget, ?_⟩, rfl⟩
  simp [hdeclaration]

end Scope

namespace Catalog

variable {scope : Scope} {naming : NameStyle}

/-! ### Shapes of records -/

theorem recordField_eq_ok_iff {decl : FieldDecl} {field : Field} :
    recordField scope naming decl = .ok field ↔ decl.ResolvesTo scope naming field := by
  rw [recordField]
  constructor
  · intro h
    obtain ⟨type, htype, h⟩ := bind_eq_ok.mp h
    cases h
    exact ⟨rfl, rfl, rfl, htype⟩
  · rintro ⟨hname, hemitted, hoptional, htype⟩
    rw [htype]
    obtain ⟨name, emitted, type, optional⟩ := field
    simp only at hname hemitted hoptional
    rw [hname, hemitted, hoptional]
    rfl

/-- The fields of a shape are those of its record, one for each and in order. -/
theorem recordShape_eq_ok_iff {record : RecordDecl} {shape : Shape} :
    recordShape scope naming record = .ok shape ↔
      List.Forall₂ (FieldDecl.ResolvesTo scope naming) record.fields shape.fields := by
  have hfields : List.Forall₂ (FieldDecl.ResolvesTo scope naming) record.fields shape.fields ↔
      record.fields.mapM (recordField scope naming) = .ok shape.fields := by
    rw [mapM_eq_ok_iff]
    simp only [recordField_eq_ok_iff]
  rw [hfields, recordShape]
  constructor
  · intro h
    obtain ⟨fields, hmap, h⟩ := bind_eq_ok.mp h
    cases h
    exact hmap
  · intro h
    rw [h]
    rfl

/-! ### Working off the pending names -/

section Worklist

variable {resolved : List (String × Shape)} {pending : List String}

/-- What holds of the records resolved so far and the names pending: no record is resolved
twice, each has the shape of its declaration, and what a shape names is resolved or
pending. -/
structure Resolving (scope : Scope) (naming : NameStyle) (resolved : List (String × Shape))
    (pending : List String) : Prop where
  nodup : (resolved.map Prod.fst).Nodup
  shapes : ∀ entry ∈ resolved, ∃ record, scope.record? entry.1 = some record ∧
    recordShape scope naming record = .ok entry.2
  covered : ∀ entry ∈ resolved, ∀ name ∈ entry.2.recordNames,
    name ∈ resolved.map Prod.fst ∨ name ∈ pending

theorem resolving_nil (pending : List String) : Resolving scope naming [] pending :=
  ⟨by simp, by simp, by simp⟩

theorem of_nextRecord?_eq_some {name : String} {record : RecordDecl}
    (h : nextRecord? scope resolved pending = some (name, record)) :
    name ∈ pending ∧ name ∉ resolved.map Prod.fst ∧ scope.record? name = some record := by
  obtain ⟨found, hmem, hfound⟩ := List.exists_of_findSome?_eq_some h
  split at hfound
  · cases hfound
  · next hnew =>
    obtain ⟨record', hrecord, heq⟩ := Option.map_eq_some_iff.mp hfound
    cases heq
    exact ⟨hmem, fun hheld => hnew (OrderedMap.contains_iff.mpr hheld), hrecord⟩

/-- When no record is next, every pending name of a record has a shape. -/
theorem mem_of_nextRecord?_eq_none (h : nextRecord? scope resolved pending = none) {name : String}
    (hname : name ∈ pending) {record : RecordDecl} (hrecord : scope.record? name = some record) :
    name ∈ resolved.map Prod.fst := by
  have hnone := List.findSome?_eq_none_iff.mp h name hname
  split at hnone
  · next hheld => exact OrderedMap.contains_iff.mp hheld
  · rw [hrecord] at hnone
    cases hnone

/-- What a shape names are records of the scope. -/
theorem exists_record_of_mem_recordNames {schema : Schema} {others : List Schema}
    (hscope : Scope.ofSchemas schema others naming = .ok scope) {record : RecordDecl}
    {shape : Shape} (hshape : recordShape scope naming record = .ok shape) {name : String}
    (hname : name ∈ shape.recordNames) : ∃ record, scope.record? name = some record := by
  obtain ⟨field, hfield, hname⟩ := (Shape.mem_namesOf .record).mp hname
  obtain ⟨decl, -, hdecl⟩ := exists_left_of_forall₂ (recordShape_eq_ok_iff.mp hshape) hfield
  obtain ⟨written, _ | found, ⟨⟩, -, hmeaning⟩ := Scope.exists_of_mem_namesOf hdecl.type hname
  exact ⟨found, (Scope.record?_eq_some_iff hscope).mpr (Scope.sees?_of_meaning? hscope hmeaning)⟩

/-- **One round**: the record that is next gets its shape, and what it names is pending. -/
theorem Resolving.step (h : Resolving scope naming resolved pending) {name : String}
    {record : RecordDecl} {shape : Shape}
    (hnext : nextRecord? scope resolved pending = some (name, record))
    (hshape : recordShape scope naming record = .ok shape) :
    Resolving scope naming (resolved ++ [(name, shape)])
      (shape.recordNames.reverse ++ pending) := by
  obtain ⟨-, hnew, hrecord⟩ := of_nextRecord?_eq_some hnext
  refine ⟨?_, ?_, ?_⟩
  · rw [List.map_append, List.nodup_append]
    refine ⟨h.nodup, by simp, ?_⟩
    -- the next record has no shape so far
    intro a ha b hb hab
    obtain rfl : b = name := by simpa using hb
    exact hnew (hab ▸ ha)
  · intro entry hentry
    rcases List.mem_append.mp hentry with hentry | hentry
    · exact h.shapes entry hentry
    · obtain rfl := List.mem_singleton.mp hentry
      exact ⟨record, hrecord, hshape⟩
  · intro entry hentry other hother
    rw [List.map_append, List.mem_append, List.mem_append]
    rcases List.mem_append.mp hentry with hentry | hentry
    · rcases h.covered entry hentry other hother with hheld | hpending
      · exact Or.inl (Or.inl hheld)
      · exact Or.inr (Or.inr hpending)
    · -- what the new shape names is pending now
      obtain rfl := List.mem_singleton.mp hentry
      exact Or.inr (Or.inl (List.mem_reverse.mpr hother))

/-- Records that are resolved once each, and one that is not, are fewer than those in scope. -/
theorem length_lt_recordCount (hnodup : (resolved.map Prod.fst).Nodup)
    (hrecords : ∀ entry ∈ resolved, ∃ record, scope.record? entry.1 = some record) {name : String}
    {record : RecordDecl} (hnew : name ∉ resolved.map Prod.fst)
    (hrecord : scope.record? name = some record) : resolved.length < scope.recordCount := by
  have hsubset : name :: resolved.map Prod.fst ⊆ scope.recordLabels := by
    intro other hother
    rcases List.mem_cons.mp hother with rfl | hother
    · exact Scope.mem_recordLabels hrecord
    · obtain ⟨entry, hentry, rfl⟩ := List.mem_map.mp hother
      obtain ⟨record', hrecord'⟩ := hrecords entry hentry
      exact Scope.mem_recordLabels hrecord'
  have hle := ((List.nodup_cons.mpr ⟨hnew, hnodup⟩).subperm hsubset).length_le
  rw [List.length_cons, List.length_map, Scope.length_recordLabels] at hle
  exact hle

/-- A record that is next is one of the scope that was not resolved yet. -/
theorem Resolving.length_lt (h : Resolving scope naming resolved pending) {name : String}
    {record : RecordDecl} (hnext : nextRecord? scope resolved pending = some (name, record)) :
    resolved.length < scope.recordCount := by
  obtain ⟨-, hnew, hrecord⟩ := of_nextRecord?_eq_some hnext
  refine length_lt_recordCount h.nodup (fun entry hentry => ?_) hnew hrecord
  obtain ⟨record', hrecord', -⟩ := h.shapes entry hentry
  exact ⟨record', hrecord'⟩

/-- **The pending names are worked off**: in the end every pending name of a record has a
shape, and what a shape names has one as well. -/
theorem resolveRecords_resolving {schema : Schema} {others : List Schema}
    (hscope : Scope.ofSchemas schema others naming = .ok scope) : ∀ (rounds : Nat)
    {resolved : List (String × Shape)} {pending : List String} {result : List (String × Shape)},
    Resolving scope naming resolved pending → scope.recordCount ≤ resolved.length + rounds →
      resolveRecords scope naming rounds resolved pending = .ok result →
        Resolving scope naming result [] ∧ ∀ name, name ∈ resolved.map Prod.fst ∨ name ∈ pending →
          (∃ record, scope.record? name = some record) → name ∈ result.map Prod.fst := by
  -- the end of the run: no record is next
  have hdone : ∀ {resolved : List (String × Shape)} {pending : List String},
      Resolving scope naming resolved pending → nextRecord? scope resolved pending = none →
        Resolving scope naming resolved [] ∧
          ∀ name, name ∈ resolved.map Prod.fst ∨ name ∈ pending →
            (∃ record, scope.record? name = some record) → name ∈ resolved.map Prod.fst := by
    intro resolved pending h hnone
    have hall : ∀ name, name ∈ resolved.map Prod.fst ∨ name ∈ pending →
        (∃ record, scope.record? name = some record) → name ∈ resolved.map Prod.fst := by
      rintro name (hheld | hpending) ⟨record, hrecord⟩
      · exact hheld
      · exact mem_of_nextRecord?_eq_none hnone hpending hrecord
    refine ⟨⟨h.nodup, h.shapes, ?_⟩, hall⟩
    intro entry hentry name hname
    obtain ⟨record, -, hshape⟩ := h.shapes entry hentry
    exact Or.inl (hall name (h.covered entry hentry name hname)
      (exists_record_of_mem_recordNames hscope hshape hname))
  intro rounds
  induction rounds with
  | zero =>
    intro resolved pending result h hcount hresult
    rw [resolveRecords] at hresult
    cases hresult
    cases hnext : nextRecord? scope resolved pending with
    | none => exact hdone h hnext
    | some found => exact absurd (h.length_lt hnext) (by omega)
  | succ rounds ih =>
    intro resolved pending result h hcount hresult
    rw [resolveRecords] at hresult
    split at hresult
    · next hnext =>
      cases hresult
      exact hdone h hnext
    · next name record hnext =>
      obtain ⟨shape, hshape, hresult⟩ := bind_eq_ok.mp hresult
      obtain ⟨hresolving, hall⟩ :=
        ih (h.step hnext hshape) (by rw [List.length_append, List.length_singleton]; omega) hresult
      refine ⟨hresolving, ?_⟩
      intro other hother
      refine hall other ?_
      rw [List.map_append, List.mem_append, List.mem_append]
      rcases hother with hheld | hpending
      · exact Or.inl (Or.inl hheld)
      · exact Or.inr (Or.inr hpending)

/-- A run fails over a record that the pending names lead to. -/
theorem exists_of_resolveRecords_error {fault : Fault} {good : String → Prop}
    (hgood : ∀ name record shape, good name → scope.record? name = some record →
      recordShape scope naming record = .ok shape → ∀ other ∈ shape.recordNames, good other) :
    ∀ (rounds : Nat) {resolved : List (String × Shape)} {pending : List String},
      (∀ name ∈ pending, good name) →
      resolveRecords scope naming rounds resolved pending = .error fault →
        ∃ name record, good name ∧ scope.record? name = some record ∧
          recordShape scope naming record = .error fault := by
  intro rounds
  induction rounds with
  | zero => intro resolved pending _ h; cases h
  | succ rounds ih =>
    intro resolved pending hpending h
    rw [resolveRecords] at h
    split at h
    · cases h
    · next name record hnext =>
      obtain ⟨hmem, -, hrecord⟩ := of_nextRecord?_eq_some hnext
      -- either this record has no shape, or a later one
      rcases bind_eq_error.mp h with hshape | ⟨shape, hshape, h⟩
      · exact ⟨name, record, hpending name hmem, hrecord, hshape⟩
      · refine ih ?_ h
        intro other hother
        rcases List.mem_append.mp hother with hnamed | hpend
        · exact hgood name record shape (hpending name hmem) hrecord hshape other
            (List.mem_reverse.mp hnamed)
        · exact hpending other hpend

end Worklist

/-! ### Closed catalogs -/

/-- All shapes of a catalog. -/
def shapes (catalog : Catalog) : List Shape :=
  catalog.entity.toList ++ catalog.constants :: catalog.records.map Prod.snd

/-- That a catalog names nothing outside it: each record has a shape with the fields of its
declaration, and each enumeration is there; so have all records of the sheet itself, and no
declared name stands for another. -/
structure Closed (catalog : Catalog) (schema : Schema) (others : List Schema) (scope : Scope) :
    Prop where
  records : ∀ shape ∈ catalog.shapes, ∀ name ∈ shape.recordNames,
    ∃ record found, schema.sees? others name = some (.record record) ∧
      catalog.record? name = some found ∧
      List.Forall₂ (FieldDecl.ResolvesTo scope catalog.naming) record.fields found.fields
  enums : ∀ shape ∈ catalog.shapes, ∀ name ∈ shape.enumNames,
    ∃ block, schema.sees? others name = some (.enum block) ∧ catalog.enum? name = some block
  own : ∀ entry ∈ schema.records, ∃ found, catalog.record? entry.1.label = some found ∧
    List.Forall₂ (FieldDecl.ResolvesTo scope catalog.naming) entry.2.fields found.fields
  declaredName : ∀ name declaration, schema.sees? others name = some declaration →
    catalog.declaredName name = name

/-- A type of a shape and the written type that it comes from: both name the same. -/
def ResolvedFrom (scope : Scope) (type : WrittenType) (resolved : ResolvedType) : Prop :=
  ∃ cell inner, scope.resolve cell type = .ok inner ∧
    ∀ kind, resolved.namesOf kind = inner.namesOf kind

theorem resolvedFrom_referTo {type : WrittenType} {cell : Cell} {inner : ResolvedType}
    (h : scope.resolve cell type = .ok inner) (target : String) :
    ResolvedFrom scope type (referTo target inner) := by
  refine ⟨cell, inner, h, fun kind => ?_⟩
  cases inner <;> cases kind <;> rfl

theorem resolvedFrom_of_designField {decl : EntityField} {field : Field}
    (h : designField scope naming decl = .ok field) : ResolvedFrom scope decl.type field.type := by
  rw [designField] at h
  obtain ⟨inner, hinner, h⟩ := bind_eq_ok.mp h
  cases h
  cases decl.reference with
  | none => exact ⟨_, inner, hinner, fun _ => rfl⟩
  | some target => exact resolvedFrom_referTo hinner target

theorem resolvedFrom_of_constantField {decl : ConstantDecl} {field : Field}
    (h : constantField scope naming decl = .ok field) :
    ResolvedFrom scope decl.type field.type := by
  rw [constantField] at h
  obtain ⟨inner, hinner, h⟩ := bind_eq_ok.mp h
  cases h
  exact ⟨_, inner, hinner, fun _ => rfl⟩

/-- The fields of the data rows come from the design. -/
theorem exists_of_mem_entity {schema : Schema} {entity : Option Shape}
    (h : entityShape scope naming schema = .ok entity) {shape : Shape} (hshape : shape ∈ entity)
    {field : Field} (hfield : field ∈ shape.fields) :
    ∃ block design decl, schema.design? = some (block, design) ∧ decl ∈ design.fields ∧
      designField scope naming decl = .ok field := by
  rw [entityShape] at h
  split at h
  · next block design hdesign =>
    obtain ⟨fields, hfields, h⟩ := bind_eq_ok.mp h
    cases h
    cases hshape
    obtain ⟨decl, hdecl, hfield⟩ := exists_of_mem_mapM hfields hfield
    exact ⟨block, design, decl, hdesign, hdecl, hfield⟩
  · cases h
    cases hshape

/-- The fields of the constants come from their declarations. -/
theorem exists_of_mem_constants {schema : Schema} {constants : Shape}
    (h : constantShape scope naming schema = .ok constants) {field : Field}
    (hfield : field ∈ constants.fields) :
    ∃ decls decl, schema.constants? = some decls ∧ decl ∈ decls ∧
      constantField scope naming decl = .ok field := by
  rw [constantShape] at h
  obtain ⟨fields, hfields, h⟩ := bind_eq_ok.mp h
  cases h
  obtain ⟨decl, hdecl, hfield⟩ := exists_of_mem_mapM hfields hfield
  cases hdecls : schema.constants? with
  | none => simp [hdecls] at hdecl
  | some decls =>
    rw [hdecls, Option.getD_some] at hdecl
    exact ⟨decls, decl, rfl, hdecl, hfield⟩

theorem mem_shapes_iff {catalog : Catalog} {shape : Shape} :
    shape ∈ catalog.shapes ↔ shape ∈ catalog.entity ∨ shape = catalog.constants ∨
      ∃ name, (name, shape) ∈ catalog.records := by
  rw [shapes, List.mem_append, List.mem_cons, List.mem_map, Option.mem_toList]
  simp

theorem mem_shapes_of_record? {catalog : Catalog} {name : String} {shape : Shape}
    (h : catalog.record? name = some shape) : shape ∈ catalog.shapes :=
  mem_shapes_iff.mpr (Or.inr (Or.inr ⟨_, OrderedMap.mem_of_get? h⟩))

/-! ### The parts of a catalog -/

/-- A catalog with the scope it was made in, after its pending names were worked off. -/
structure MadeIn (catalog : Catalog) (schema : Schema) (others : List Schema) (scope : Scope) :
    Prop where
  inScope : Scope.ofSchemas schema others catalog.naming = .ok scope
  entity : entityShape scope catalog.naming schema = .ok catalog.entity
  constants : constantShape scope catalog.naming schema = .ok catalog.constants
  enums : catalog.enums = scope.enums
  aliases : catalog.aliases = scope.aliases
  resolving : Resolving scope catalog.naming catalog.records []
  pending : ∀ name ∈ pendingRecords schema catalog.entity catalog.constants,
    (∃ record, scope.record? name = some record) → name ∈ catalog.records.map Prod.fst

theorem madeIn_of_ofSchemas {schema : Schema} {others : List Schema} {catalog : Catalog}
    (h : ofSchemas schema others naming = .ok catalog) :
    catalog.naming = naming ∧ ∃ scope, catalog.MadeIn schema others scope := by
  rw [ofSchemas] at h
  obtain ⟨scope, hscope, h⟩ := bind_eq_ok.mp h
  obtain ⟨entity, hentity, h⟩ := bind_eq_ok.mp h
  obtain ⟨constants, hconstants, h⟩ := bind_eq_ok.mp h
  obtain ⟨records, hrecords, h⟩ := bind_eq_ok.mp h
  cases h
  obtain ⟨hresolving, hall⟩ := resolveRecords_resolving hscope scope.recordCount
    (resolving_nil _) (by simp) hrecords
  refine ⟨rfl, scope, hscope, hentity, hconstants, rfl, rfl, hresolving, ?_⟩
  intro name hname
  exact hall name (Or.inr (List.mem_reverse.mpr hname))

namespace MadeIn

variable {schema : Schema} {others : List Schema} {catalog : Catalog}

/-- Every type of a shape comes from a type that was written somewhere. -/
theorem exists_resolvedFrom (h : catalog.MadeIn schema others scope) {shape : Shape}
    (hshape : shape ∈ catalog.shapes) {field : Field} (hfield : field ∈ shape.fields) :
    ∃ type, ResolvedFrom scope type field.type := by
  rcases mem_shapes_iff.mp hshape with hshape | rfl | ⟨name, hmem⟩
  · obtain ⟨_, _, decl, -, -, hdecl⟩ := exists_of_mem_entity h.entity hshape hfield
    exact ⟨decl.type, resolvedFrom_of_designField hdecl⟩
  · obtain ⟨_, decl, -, -, hdecl⟩ := exists_of_mem_constants h.constants hfield
    exact ⟨decl.type, resolvedFrom_of_constantField hdecl⟩
  · obtain ⟨record, -, hrecord⟩ := h.resolving.shapes _ hmem
    obtain ⟨decl, -, hdecl⟩ := exists_left_of_forall₂ (recordShape_eq_ok_iff.mp hrecord) hfield
    exact ⟨decl.type, _, _, hdecl.type, fun _ => rfl⟩

/-- What a shape names as a declaration of some kind is declared as one. -/
theorem exists_sees? (h : catalog.MadeIn schema others scope) (kind : TypeKind) {shape : Shape}
    (hshape : shape ∈ catalog.shapes) {name : String} (hname : name ∈ shape.namesOf kind) :
    ∃ declaration, declaration.kind = kind ∧ schema.sees? others name = some declaration := by
  obtain ⟨field, hfield, hname⟩ := (Shape.mem_namesOf kind).mp hname
  obtain ⟨type, cell, inner, hinner, hnames⟩ := h.exists_resolvedFrom hshape hfield
  rw [hnames] at hname
  obtain ⟨_, declaration, hkind, -, hmeaning⟩ := Scope.exists_of_mem_namesOf hinner hname
  exact ⟨declaration, hkind, Scope.sees?_of_meaning? h.inScope hmeaning⟩

/-- What a shape names as a record was pending at the start, or in some round. -/
theorem mem_records (h : catalog.MadeIn schema others scope) {shape : Shape}
    (hshape : shape ∈ catalog.shapes) {name : String} (hname : name ∈ shape.recordNames) :
    name ∈ catalog.records.map Prod.fst := by
  obtain ⟨_ | record, ⟨⟩, hsees⟩ := h.exists_sees? .record hshape hname
  have hrecord := (Scope.record?_eq_some_iff h.inScope).mpr hsees
  rcases mem_shapes_iff.mp hshape with hshape | rfl | ⟨key, hkey⟩
  · refine h.pending name ?_ ⟨record, hrecord⟩
    rw [Option.mem_def.mp hshape, pendingRecords]
    exact List.mem_append_left _ (List.mem_append_right _ hname)
  · exact h.pending name (List.mem_append_right _ hname) ⟨record, hrecord⟩
  · rcases h.resolving.covered _ hkey name hname with hheld | hnone
    · exact hheld
    · cases hnone

theorem declaredName_of_sees? (h : catalog.MadeIn schema others scope) {name : String}
    {declaration : Declaration} (hsees : schema.sees? others name = some declaration) :
    catalog.declaredName name = name := by
  rw [declaredName, h.aliases]
  exact Scope.declaredName_of_sees? h.inScope hsees

theorem enum?_of_sees? (h : catalog.MadeIn schema others scope) {name : String} {block : EnumDecl}
    (hsees : schema.sees? others name = some (.enum block)) : catalog.enum? name = some block := by
  rw [enum?, h.declaredName_of_sees? hsees, h.enums, Scope.get?_enums h.inScope hsees]

/-- A record with a shape has that of its declaration. -/
theorem recordShape_of_record? (h : catalog.MadeIn schema others scope) {name : String}
    {record : RecordDecl} (hsees : schema.sees? others name = some (.record record)) {shape : Shape}
    (hshape : catalog.record? name = some shape) :
    recordShape scope catalog.naming record = .ok shape := by
  rw [record?, h.declaredName_of_sees? hsees] at hshape
  obtain ⟨record', hrecord', hresolved⟩ := h.resolving.shapes _ (OrderedMap.mem_of_get? hshape)
  have hsees' := (Scope.record?_eq_some_iff h.inScope).mp hrecord'
  obtain rfl : record = record' := by
    simpa using hsees.symm.trans hsees'
  exact hresolved

theorem exists_record? (h : catalog.MadeIn schema others scope) {name : String}
    {record : RecordDecl} (hsees : schema.sees? others name = some (.record record))
    (hmem : name ∈ catalog.records.map Prod.fst) :
    ∃ found, catalog.record? name = some found ∧
      List.Forall₂ (FieldDecl.ResolvesTo scope catalog.naming) record.fields found.fields := by
  obtain ⟨found, hfound⟩ := OrderedMap.exists_get?_of_mem hmem
  have hrecord : catalog.record? name = some found := by
    rw [record?, h.declaredName_of_sees? hsees, hfound]
  exact ⟨found, hrecord, recordShape_eq_ok_iff.mp (h.recordShape_of_record? hsees hrecord)⟩

/-- **Catalogs are closed.** -/
theorem closed (h : catalog.MadeIn schema others scope) : catalog.Closed schema others scope := by
  refine ⟨?_, ?_, ?_, fun name declaration => h.declaredName_of_sees?⟩
  · intro shape hshape name hname
    obtain ⟨_ | record, ⟨⟩, hsees⟩ := h.exists_sees? .record hshape hname
    obtain ⟨found, hfound, hfields⟩ := h.exists_record? hsees (h.mem_records hshape hname)
    exact ⟨record, found, hsees, hfound, hfields⟩
  · intro shape hshape name hname
    obtain ⟨block | _, ⟨⟩, hsees⟩ := h.exists_sees? .enum hshape hname
    exact ⟨block, hsees, h.enum?_of_sees? hsees⟩
  · intro entry hentry
    -- own records are pending from the start, whether or not anything names them
    have hdeclared : (entry.1, Declaration.record entry.2) ∈ schema.declarations :=
      List.mem_append_right _ (List.mem_map.mpr ⟨entry, hentry, rfl⟩)
    have hpending : entry.1.label ∈ pendingRecords schema catalog.entity catalog.constants :=
      List.mem_append_left _ (List.mem_append_left _ (List.mem_map.mpr ⟨entry, hentry, rfl⟩))
    have hsees := Scope.sees?_of_mem_declarations h.inScope hdeclared
    exact h.exists_record? hsees
      (h.pending _ hpending ⟨entry.2, (Scope.record?_eq_some_iff h.inScope).mpr hsees⟩)

end MadeIn

end Catalog
end TypedSheets

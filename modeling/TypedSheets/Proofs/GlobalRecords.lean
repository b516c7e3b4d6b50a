import TypedSheets.Proofs.ClosedCatalog
import TypedSheets.Proofs.Literals

/-!
# Global records in other sheets

A sheet may use a global record of another one.  What it sees under the name of the record
is the declaration of its owner, so the fields are the same in both sheets.  The names in
their types are looked up in the sheet that uses the record, though, where a declaration of
its own comes before a global one.  Hence the record means the same in both sheets exactly
when every name in it does, whether it stands in a field of the record itself or in one of a
record that it reaches; and then both sheets read the same data for it, and no name in it is
what the other sheet lacks.

## Main definitions

* `Schema.home?` — the declaration that a sheet sees under a name, and where it stands.
* `Schema.denotes?` — what a name in a type cell of a sheet denotes.
* `Scope.Mentions` — the names in a record and in those that it reaches.
* `Schema.Uses` — that a sheet uses a record.
* `Catalog.SameRecord` — that a record means the same in two sheets.

## Main results

* `Schema.home?_of_global` — a global record is seen as its owner declares it.
* `Catalog.sameRecord_iff` — **when a record means the same in two sheets.**
* `Catalog.SameRecord.ofText_eq` — then both read the same data for it.
* `Catalog.globalRecord_sameRecord_iff` — **what follows for a global record of a run.**
-/

namespace TypedSheets

namespace Schema

/-! ### Where declarations stand -/

/-- The declarations of a sheet by name, each with the name of the sheet. -/
def placed (schema : Schema) : List (String × String × Declaration) :=
  schema.declarations.map fun entry => (entry.1.label, schema.sheet, entry.2)

/-- Those of them that other sheets see. -/
def offered (schema : Schema) : List (String × String × Declaration) :=
  schema.placed.filter fun entry => entry.2.2.isGlobal

/-- The declaration that a sheet sees under a name, with the sheet it stands in. -/
def home? (schema : Schema) (others : List Schema) (name : String) :
    Option (String × Declaration) :=
  (OrderedMap.get? schema.placed name).or
    (OrderedMap.get? ((others.filter fun other => other.sheet ≠ schema.sheet).flatMap offered) name)

theorem named_eq_map_placed (schema : Schema) :
    schema.named = schema.placed.map fun entry => (entry.1, entry.2.2) := by
  rw [named, placed, List.map_map]
  rfl

theorem globals_eq_map_offered (sheet : String) (others : List Schema) :
    Scope.globals sheet others
      = ((others.filter fun other => other.sheet ≠ sheet).flatMap offered).map
          fun entry => (entry.1, entry.2.2) := by
  rw [Scope.globals, List.filterMap_flatMap, List.map_flatMap]
  congr 1
  funext other
  rw [offered, placed]
  induction other.declarations with
  | nil => rfl
  | cons entry rest ih =>
    obtain ⟨block, declaration⟩ := entry
    by_cases h : declaration.isGlobal = true
    · simp [h, ih]
    · simp [h, ih]

/-- What a sheet sees is what stands somewhere. -/
theorem sees?_eq_home? (schema : Schema) (others : List Schema) (name : String) :
    schema.sees? others name = (schema.home? others name).map Prod.snd := by
  rw [sees?, home?, named_eq_map_placed, globals_eq_map_offered, OrderedMap.get?_map_snd,
    OrderedMap.get?_map_snd]
  cases OrderedMap.get? schema.placed name with
  | none => rfl
  | some found => rfl

theorem sees?_of_home? {schema : Schema} {others : List Schema} {name sheet : String}
    {declaration : Declaration} (h : schema.home? others name = some (sheet, declaration)) :
    schema.sees? others name = some declaration := by
  rw [sees?_eq_home?, h, Option.map_some]

/-- A sheet sees its own declarations where they stand. -/
theorem home?_of_mem_declarations {schema : Schema} {others : List Schema} {naming : NameStyle}
    {scope : Scope} (hscope : Scope.ofSchemas schema others naming = .ok scope) {block : Block}
    {declaration : Declaration} (hmem : (block, declaration) ∈ schema.declarations) :
    schema.home? others block.label = some (schema.sheet, declaration) := by
  have hnodup : (schema.placed.map Prod.fst).Nodup := by
    have hnames : schema.placed.map Prod.fst = schema.named.map Prod.fst := by
      rw [named_eq_map_placed, List.map_map]
      rfl
    rw [hnames]
    exact (Scope.ofSchemas_eq_ok hscope).1
  have hplaced : (block.label, schema.sheet, declaration) ∈ schema.placed :=
    List.mem_map.mpr ⟨(block, declaration), hmem, rfl⟩
  rw [home?, OrderedMap.get?_of_mem hnodup hplaced, Option.some_or]

/-- **A global declaration is seen as its owner has it** by a sheet that declares nothing
under its name, if no sheet before the owner has a global one of that name. -/
theorem home?_of_global {before after : List Schema} {owner user : Schema} {naming : NameStyle}
    {scope : Scope}
    (hscope : Scope.ofSchemas owner (before ++ owner :: after) naming = .ok scope)
    (hsheet : owner.sheet ≠ user.sheet) {block : Block} {declaration : Declaration}
    (hmem : (block, declaration) ∈ owner.declarations) (hglobal : declaration.isGlobal = true)
    (hown : ∀ entry ∈ user.declarations, entry.1.label ≠ block.label)
    (hfirst : ∀ other ∈ before, ∀ entry ∈ other.declarations,
      entry.1.label = block.label → entry.2.isGlobal = false) :
    user.home? (before ++ owner :: after) block.label = some (owner.sheet, declaration) := by
  -- the search passes the sheet itself, then those before the owner
  have huser : OrderedMap.get? user.placed block.label = none := by
    rw [OrderedMap.get?_eq_none_iff, placed, List.map_map]
    intro hlabel
    obtain ⟨entry, hentry, hlabel⟩ := List.mem_map.mp hlabel
    exact hown entry hentry hlabel
  have hbefore : OrderedMap.get?
      ((before.filter fun other => other.sheet ≠ user.sheet).flatMap offered) block.label
        = none := by
    rw [OrderedMap.get?_eq_none_iff]
    intro hlabel
    obtain ⟨found, hfound, hlabel⟩ := List.mem_map.mp hlabel
    obtain ⟨other, hother, hoffered⟩ := List.mem_flatMap.mp hfound
    obtain ⟨hplaced, hseen⟩ := List.mem_filter.mp hoffered
    obtain ⟨entry, hentry, rfl⟩ := List.mem_map.mp hplaced
    have hhidden := hfirst other (List.mem_filter.mp hother).1 entry hentry hlabel
    rw [hhidden] at hseen
    cases hseen
  have howner : OrderedMap.get? owner.offered block.label = some (owner.sheet, declaration) := by
    refine OrderedMap.get?_of_mem ?_ (List.mem_filter.mpr
      ⟨List.mem_map.mpr ⟨(block, declaration), hmem, rfl⟩, hglobal⟩)
    have hnodup := (Scope.ofSchemas_eq_ok hscope).1
    rw [named_eq_map_placed, List.map_map] at hnodup
    exact hnodup.sublist (List.filter_sublist.map _)
  rw [home?, huser, Option.none_or, List.filter_append, List.flatMap_append,
    OrderedMap.get?_append, hbefore, Option.none_or,
    List.filter_cons_of_pos (by simpa using hsheet), List.flatMap_cons, OrderedMap.get?_append,
    howner, Option.some_or]

/-! ### What names denote -/

/-- What a name in a type cell of a sheet denotes: the name that it is declared under, the
sheet of the declaration and the declaration. -/
def denotes? (schema : Schema) (others : List Schema) (scope : Scope) (name : String) :
    Option (String × String × Declaration) :=
  (schema.home? others (scope.declaredName name)).map fun found => (scope.declaredName name, found)

variable {schema : Schema} {others : List Schema} {scope : Scope} {naming : NameStyle}

theorem meaning?_eq_denotes? (hscope : Scope.ofSchemas schema others naming = .ok scope)
    (name : String) :
    scope.meaning? name
      = (schema.denotes? others scope name).map fun found => (found.1, found.2.2) := by
  rw [Scope.meaning?, denotes?, Scope.get?_declared hscope, sees?_eq_home?]
  cases schema.home? others (scope.declaredName name) with
  | none => rfl
  | some found => rfl

theorem denotes?_of_meaning? {name key : String} {declaration : Declaration}
    (h : scope.meaning? name = some (key, declaration)) :
    schema.denotes? others scope name
      = (schema.home? others key).map fun found => (key, found) := by
  obtain ⟨_, -, heq⟩ := Option.map_eq_some_iff.mp h
  cases heq
  rfl

end Schema

/-! ### Names in records -/

/-- The names in the types of a record, and in those of the records that such names stand
for. -/
inductive Scope.Mentions (scope : Scope) (record : RecordDecl) : String → Prop
  | here {field : FieldDecl} {name : String} (hfield : field ∈ record.fields)
      (hname : field.type.leaf = .named name) : Mentions scope record name
  | there {name key : String} {inner : RecordDecl} {field : FieldDecl} {other : String}
      (h : Mentions scope record name) (hmeaning : scope.meaning? name = some (key, .record inner))
      (hfield : field ∈ inner.fields) (hother : field.type.leaf = .named other) :
      Mentions scope record other

/-- That a sheet uses a record: the name in a type that it reaches stands for it. -/
def Schema.Uses (schema : Schema) (scope : Scope) (key : String) : Prop :=
  ∃ type name record, schema.Reaches scope type ∧ type.leaf = .named name ∧
    scope.meaning? name = some (key, .record record)

namespace Catalog

theorem MadeIn.exists_record?_of_uses {catalog : Catalog} {schema : Schema} {others : List Schema}
    {scope : Scope} (h : catalog.MadeIn schema others scope) {key : String}
    (huses : schema.Uses scope key) : ∃ shape, catalog.record? key = some shape := by
  obtain ⟨type, name, record, hreaches, hname, hmeaning⟩ := huses
  obtain ⟨outer, houter, field, hfield, hresolved⟩ := h.exists_of_reaches hreaches
  obtain ⟨shape, hshape, -⟩ := h.exists_of_resolvedFrom houter hfield hresolved hname hmeaning
  exact ⟨shape, hshape⟩

/-- The records that a record reaches in a catalog, itself among them. -/
inductive Reached (catalog : Catalog) (root : String) : String → Prop
  | root : Reached catalog root root
  | field {key name : String} {shape : Shape} (h : Reached catalog root key)
      (hshape : catalog.record? key = some shape) (hname : name ∈ shape.recordNames) :
      Reached catalog root name

/-- That a record of the second sheet means the same in the first: all records that it
reaches have the same shapes, and what they name are the same declarations of the same
sheets. -/
structure SameRecord (run : List Schema) (user : Schema) (theirs : Catalog) (owner : Schema)
    (ours : Catalog) (root : String) : Prop where
  records : ∀ key, ours.Reached root key →
    theirs.record? key = ours.record? key ∧ user.home? run key = owner.home? run key
  enums : ∀ key shape, ours.Reached root key → ours.record? key = some shape →
    ∀ name ∈ shape.enumNames,
      theirs.enum? name = ours.enum? name ∧ user.home? run name = owner.home? run name

/-- What a reached record names stands where its owner has it. -/
theorem SameRecord.home?_eq {run : List Schema} {user owner : Schema} {theirs ours : Catalog}
    {root : String} (h : SameRecord run user theirs owner ours root) {kind : TypeKind}
    {key name : String} (hkey : ours.Reached root key) {shape : Shape}
    (hshape : ours.record? key = some shape) (hname : name ∈ shape.namesOf kind) :
    user.home? run name = owner.home? run name := by
  cases kind with
  | enum => exact (h.enums key shape hkey hshape name hname).2
  | record => exact (h.records name (hkey.field hshape hname)).2

/-- Scopes in which the names of a record stand for the same give it the same shape. -/
theorem recordShape_congr {scope scope' : Scope} {naming : NameStyle} {record : RecordDecl}
    (h : ∀ field ∈ record.fields, ∀ name, field.type.leaf = .named name →
      scope'.meaning? name = scope.meaning? name) :
    recordShape scope' naming record = recordShape scope naming record := by
  have hmap : record.fields.mapM (recordField scope' naming)
      = record.fields.mapM (recordField scope naming) := by
    refine mapM_congr ?_
    intro field hfield
    rw [recordField, recordField, Scope.resolve_congr (h field hfield)]
  rw [recordShape, recordShape, hmap]

section Shared

variable {run : List Schema} {user owner : Schema} {theirs ours : Catalog}
  {userScope ownerScope : Scope} {naming : NameStyle} {root : String} {record : RecordDecl}

/-- A record among those that another one reaches, by its declaration: the names in it are
names in that one. -/
structure Within (run : List Schema) (owner : Schema) (scope : Scope) (record : RecordDecl)
    (key : String) (inner : RecordDecl) : Prop where
  sees : owner.sees? run key = some (.record inner)
  mentions : ∀ field ∈ inner.fields, ∀ name, field.type.leaf = .named name →
    scope.Mentions record name

/-- What the shape of a reached record names comes from a name in the record. -/
theorem Within.exists_mentions (kind : TypeKind) (hours : ours.MadeIn owner run ownerScope)
    {key : String} {inner : RecordDecl} (h : Within run owner ownerScope record key inner)
    {shape : Shape} (hshape : ours.record? key = some shape) {name : String}
    (hname : name ∈ shape.namesOf kind) :
    ∃ written found, found.kind = kind ∧ ownerScope.Mentions record written ∧
      ownerScope.meaning? written = some (name, found) := by
  obtain ⟨field, hfield, hname⟩ := (Shape.mem_namesOf kind).mp hname
  obtain ⟨decl, hdecl, hresolves⟩ := exists_left_of_forall₂
    (recordShape_eq_ok_iff.mp (hours.recordShape_of_record? h.sees hshape)) hfield
  obtain ⟨written, found, hkind, hwritten, hmeaning⟩ :=
    Scope.exists_of_mem_namesOf hresolves.type hname
  exact ⟨written, found, hkind, h.mentions decl hdecl written hwritten, hmeaning⟩

theorem within_of_reached (hours : ours.MadeIn owner run ownerScope)
    (hroot : owner.sees? run root = some (.record record)) {key : String}
    (h : ours.Reached root key) : ∃ inner, Within run owner ownerScope record key inner := by
  induction h with
  | root => exact ⟨record, hroot, fun field hfield name hname => .here hfield hname⟩
  | field _ hshape hname ih =>
    obtain ⟨inner, hinner⟩ := ih
    obtain ⟨written, _ | found, ⟨⟩, hmentions, hmeaning⟩ :=
      hinner.exists_mentions .record hours hshape hname
    exact ⟨found, Scope.sees?_of_meaning? hours.inScope hmeaning,
      fun field hfield name hname => .there hmentions hmeaning hfield hname⟩

theorem exists_record?_of_reached (hours : ours.MadeIn owner run ownerScope)
    (hshape : ∃ shape, ours.record? root = some shape) {key : String}
    (h : ours.Reached root key) : ∃ shape, ours.record? key = some shape := by
  cases h with
  | root => exact hshape
  | field _ hparent hname =>
    obtain ⟨_, found, -, hfound, -⟩ :=
      hours.closed.records _ (mem_shapes_of_record? hparent) _ hname
    exact ⟨found, hfound⟩

/-! ### When every name denotes the same -/

/-- That the names in a record denote the same in two sheets. -/
def NamesAgree (run : List Schema) (user : Schema) (userScope : Scope) (owner : Schema)
    (ownerScope : Scope) (record : RecordDecl) : Prop :=
  ∀ name, ownerScope.Mentions record name →
    user.denotes? run userScope name = owner.denotes? run ownerScope name

theorem NamesAgree.meaning?_eq (huser : Scope.ofSchemas user run naming = .ok userScope)
    (hours : ours.MadeIn owner run ownerScope)
    (h : NamesAgree run user userScope owner ownerScope record) {name : String}
    (hname : ownerScope.Mentions record name) :
    userScope.meaning? name = ownerScope.meaning? name := by
  rw [Schema.meaning?_eq_denotes? huser, Schema.meaning?_eq_denotes? hours.inScope, h name hname]

/-- A declaration that a name in the record stands for is seen where its owner sees it. -/
theorem NamesAgree.home?_eq (hours : ours.MadeIn owner run ownerScope)
    (h : NamesAgree run user userScope owner ownerScope record) {written name : String}
    {declaration : Declaration} (hwritten : ownerScope.Mentions record written)
    (hmeaning : ownerScope.meaning? written = some (name, declaration)) :
    user.home? run name = owner.home? run name := by
  have hsees := Scope.sees?_of_meaning? hours.inScope hmeaning
  rw [Schema.sees?_eq_home?] at hsees
  obtain ⟨found, hfound, -⟩ := Option.map_eq_some_iff.mp hsees
  have hdenotes := h written hwritten
  rw [Schema.denotes?_of_meaning? hmeaning, hfound, Option.map_some] at hdenotes
  obtain ⟨found', hfound', heq⟩ := Option.map_eq_some_iff.mp hdenotes
  cases heq
  rw [hfound', hfound]

theorem NamesAgree.home?_eq_of_reached (hours : ours.MadeIn owner run ownerScope)
    (hroot : owner.sees? run root = some (.record record))
    (hhome : user.home? run root = owner.home? run root)
    (h : NamesAgree run user userScope owner ownerScope record) {key : String}
    (hkey : ours.Reached root key) : user.home? run key = owner.home? run key := by
  cases hkey with
  | root => exact hhome
  | field hparent hshape hname =>
    obtain ⟨inner, hinner⟩ := within_of_reached hours hroot hparent
    obtain ⟨written, found, -, hmentions, hmeaning⟩ :=
      hinner.exists_mentions .record hours hshape hname
    exact h.home?_eq hours hmentions hmeaning

/-- The records that the record reaches get the same shapes in the sheet that uses it. -/
theorem NamesAgree.recordShape_of_reached
    (huser : Scope.ofSchemas user run ours.naming = .ok userScope)
    (hours : ours.MadeIn owner run ownerScope)
    (hroot : owner.sees? run root = some (.record record))
    (hhome : user.home? run root = owner.home? run root)
    (h : NamesAgree run user userScope owner ownerScope record) {key : String}
    (hkey : ours.Reached root key) {shape : Shape} (hshape : ours.record? key = some shape) :
    ∃ inner, user.sees? run key = some (.record inner) ∧
      recordShape userScope ours.naming inner = .ok shape := by
  obtain ⟨inner, hinner⟩ := within_of_reached hours hroot hkey
  refine ⟨inner, ?_, ?_⟩
  · rw [Schema.sees?_eq_home?, h.home?_eq_of_reached hours hroot hhome hkey,
      ← Schema.sees?_eq_home?, hinner.sees]
  · have hresolved := hours.recordShape_of_record? hinner.sees hshape
    rw [← hresolved]
    -- the shape of a record depends on what the names in its fields stand for
    refine recordShape_congr ?_
    intro field hfield name hname
    exact h.meaning?_eq huser hours (hinner.mentions field hfield name hname)

theorem sameRecord_of_namesAgree (htheirs : theirs.MadeIn user run userScope)
    (hours : ours.MadeIn owner run ownerScope) (hnaming : theirs.naming = ours.naming)
    (hroot : owner.sees? run root = some (.record record))
    (hhome : user.home? run root = owner.home? run root)
    (hused : ∃ shape, theirs.record? root = some shape)
    (hshape : ∃ shape, ours.record? root = some shape)
    (h : NamesAgree run user userScope owner ownerScope record) :
    SameRecord run user theirs owner ours root := by
  have huser := htheirs.inScope
  rw [hnaming] at huser
  -- a reached record that has a shape with the user has the same as with its owner
  have hequal : ∀ key, ours.Reached root key → (∃ found, theirs.record? key = some found) →
      theirs.record? key = ours.record? key := by
    rintro key hkey ⟨found, hfound⟩
    obtain ⟨shape, hshape⟩ := exists_record?_of_reached hours hshape hkey
    obtain ⟨inner, hsees, hresolved⟩ := h.recordShape_of_reached huser hours hroot hhome hkey hshape
    have hresolved' := htheirs.recordShape_of_record? hsees hfound
    rw [hnaming, hresolved] at hresolved'
    cases hresolved'
    rw [hfound, hshape]
  have hrecords : ∀ key, ours.Reached root key → theirs.record? key = ours.record? key := by
    intro key hkey
    induction hkey with
    | root => exact hequal root .root hused
    | field hparent hshape hname ih =>
      rw [hshape] at ih
      obtain ⟨_, found, -, hfound, -⟩ := htheirs.closed.records _ (mem_shapes_of_record? ih) _ hname
      exact hequal _ (.field hparent hshape hname) ⟨found, hfound⟩
  refine ⟨fun key hkey => ⟨hrecords key hkey, h.home?_eq_of_reached hours hroot hhome hkey⟩, ?_⟩
  intro key shape hkey hshape name hname
  obtain ⟨inner, hinner⟩ := within_of_reached hours hroot hkey
  obtain ⟨written, found | _, ⟨⟩, hmentions, hmeaning⟩ :=
    hinner.exists_mentions .enum hours hshape hname
  have hhomes := h.home?_eq hours hmentions hmeaning
  have hsees := Scope.sees?_of_meaning? hours.inScope hmeaning
  have hsees' : user.sees? run name = some (.enum found) := by
    rw [Schema.sees?_eq_home?, hhomes, ← Schema.sees?_eq_home?, hsees]
  exact ⟨by rw [htheirs.enum?_of_sees? hsees', hours.enum?_of_sees? hsees], hhomes⟩

/-! ### When the record means the same -/

/-- A name in the record stands in a field of a record that is reached. -/
theorem reached_of_mentions (hours : ours.MadeIn owner run ownerScope)
    (hroot : owner.sees? run root = some (.record record))
    (hshape : ∃ shape, ours.record? root = some shape) {name : String}
    (h : ownerScope.Mentions record name) :
    ∃ key inner shape field, ours.Reached root key ∧ owner.sees? run key = some (.record inner) ∧
      ours.record? key = some shape ∧ field ∈ inner.fields ∧ field.type.leaf = .named name := by
  induction h with
  | here hfield hname =>
    obtain ⟨shape, hshape⟩ := hshape
    exact ⟨root, record, shape, _, .root, hroot, hshape, hfield, hname⟩
  | @there name key inner _ _ _ hmeaning hfield hother ih =>
    obtain ⟨parent, outer, shape, field, hparent, hsees, hfound, hmem, hname⟩ := ih
    obtain ⟨resolved, hresolved, hresolves⟩ := exists_right_of_forall₂
      (recordShape_eq_ok_iff.mp (hours.recordShape_of_record? hsees hfound)) hmem
    -- the name stands for a record, which the shape of its field names then
    obtain ⟨_, _, hmeaning', hkey⟩ := Scope.meaning?_of_resolve hresolves.type hname
    cases hmeaning.symm.trans hmeaning'
    have hreached :=
      hparent.field hfound ((Shape.mem_namesOf .record).mpr ⟨resolved, hresolved, hkey⟩)
    obtain ⟨found, hfound⟩ := exists_record?_of_reached hours hshape hreached
    exact ⟨key, inner, found, _, hreached, Scope.sees?_of_meaning? hours.inScope hmeaning, hfound,
      hfield, hother⟩

/-- A name in the record stands for something with its owner. -/
theorem meaning?_of_mentions (hours : ours.MadeIn owner run ownerScope)
    (hroot : owner.sees? run root = some (.record record))
    (hshape : ∃ shape, ours.record? root = some shape) {name : String}
    (h : ownerScope.Mentions record name) :
    ∃ key declaration, ownerScope.meaning? name = some (key, declaration) := by
  obtain ⟨_, inner, shape, field, -, hsees, hfound, hfield, hleaf⟩ :=
    reached_of_mentions hours hroot hshape h
  obtain ⟨_, -, hresolves⟩ := exists_right_of_forall₂
    (recordShape_eq_ok_iff.mp (hours.recordShape_of_record? hsees hfound)) hfield
  obtain ⟨key, declaration, hmeaning, -⟩ := Scope.meaning?_of_resolve hresolves.type hleaf
  exact ⟨key, declaration, hmeaning⟩

/-- When the names agree, none of them is what a sheet that uses the record lacks. -/
theorem NamesAgree.not_mentions_of_error (hours : ours.MadeIn owner run ownerScope)
    (huser : Scope.ofSchemas user run naming = .ok userScope)
    (hroot : owner.sees? run root = some (.record record))
    (hshape : ∃ shape, ours.record? root = some shape)
    (h : NamesAgree run user userScope owner ownerScope record) {name : String} {cell : Cell}
    (herror : ofSchemas user run naming = .error (.undefinedType name cell)) :
    ¬ ownerScope.Mentions record name := by
  intro hname
  obtain ⟨scope, hscope, type, _, -, hresolve, -⟩ := exists_of_ofSchemas_error herror rfl
  cases hscope.symm.trans huser
  obtain ⟨_, -, hnone, hfault⟩ := Scope.resolve_eq_error_iff.mp hresolve
  cases hfault
  obtain ⟨key, declaration, hmeaning⟩ := meaning?_of_mentions hours hroot hshape hname
  rw [h.meaning?_eq huser hours hname, hmeaning] at hnone
  cases hnone

theorem namesAgree_of_sameRecord (htheirs : theirs.MadeIn user run userScope)
    (hours : ours.MadeIn owner run ownerScope)
    (hroot : owner.sees? run root = some (.record record))
    (hshape : ∃ shape, ours.record? root = some shape)
    (h : SameRecord run user theirs owner ours root) :
    NamesAgree run user userScope owner ownerScope record := by
  intro name hname
  obtain ⟨key, inner, shape, field, hkey, hsees, hfound, hfield, hleaf⟩ :=
    reached_of_mentions hours hroot hshape hname
  obtain ⟨hrecord, hhome⟩ := h.records key hkey
  have hsees' : user.sees? run key = some (.record inner) := by
    rw [Schema.sees?_eq_home?, hhome, ← Schema.sees?_eq_home?, hsees]
  rw [hfound] at hrecord
  obtain ⟨resolved, hresolved, hmine, htheir⟩ := exists_right_of_forall₂
    (List.Forall₂.mp (fun _ _ => And.intro)
      (recordShape_eq_ok_iff.mp (hours.recordShape_of_record? hsees hfound))
      (recordShape_eq_ok_iff.mp (htheirs.recordShape_of_record? hsees' hrecord))) hfield
  -- both sheets resolve the type of the field alike, so the name has one key in both
  obtain ⟨named, found, hmeaning, hmem⟩ := Scope.meaning?_of_resolve hmine.type hleaf
  obtain ⟨_, _, -, hleaf', hmeaning'⟩ := Scope.exists_of_mem_namesOf htheir.type hmem
  cases hleaf.symm.trans hleaf'
  rw [Schema.denotes?_of_meaning? hmeaning, Schema.denotes?_of_meaning? hmeaning',
    h.home?_eq hkey hfound ((Shape.mem_namesOf found.kind).mpr ⟨resolved, hresolved, hmem⟩)]

/-- **A record means the same in two sheets exactly when every name in it does.** -/
theorem sameRecord_iff (htheirs : theirs.MadeIn user run userScope)
    (hours : ours.MadeIn owner run ownerScope) (hnaming : theirs.naming = ours.naming)
    (hroot : owner.sees? run root = some (.record record))
    (hhome : user.home? run root = owner.home? run root)
    (hused : ∃ shape, theirs.record? root = some shape)
    (hshape : ∃ shape, ours.record? root = some shape) :
    SameRecord run user theirs owner ours root ↔
      NamesAgree run user userScope owner ownerScope record :=
  ⟨namesAgree_of_sameRecord htheirs hours hroot hshape,
    sameRecord_of_namesAgree htheirs hours hnaming hroot hhome hused hshape⟩

/-! ### Reading the same data -/

/-- A type that names only records that are reached, and enumerations that both catalogs
have alike. -/
structure Common (theirs ours : Catalog) (root : String) (type : ResolvedType) : Prop where
  records : ∀ name ∈ type.recordNames, ours.Reached root name
  enums : ∀ name ∈ type.enumNames, theirs.enum? name = ours.enum? name

theorem Common.bare {type : ResolvedType} (h : Common theirs ours root type) :
    Common theirs ours root type.bare :=
  ⟨by simpa using h.records, by simpa using h.enums⟩

theorem SameRecord.common_field (h : SameRecord run user theirs owner ours root) {key : String}
    (hkey : ours.Reached root key) {shape : Shape} (hshape : ours.record? key = some shape)
    {field : Field} (hfield : field ∈ shape.fields) : Common theirs ours root field.type := by
  constructor
  · intro name hname
    exact hkey.field hshape ((Shape.mem_namesOf .record).mpr ⟨field, hfield, hname⟩)
  · intro name hname
    have hmem := (Shape.mem_namesOf .enum).mpr ⟨field, hfield, hname⟩
    exact (h.enums key shape hkey hshape name hmem).1

theorem ofEnumText?_congr (hnaming : theirs.naming = ours.naming) {name : String}
    (henum : theirs.enum? name = ours.enum? name) (text : String) :
    theirs.ofEnumText? name text = ours.ofEnumText? name text := by
  simp only [ofEnumText?, numberValue?, memberValue, henum, hnaming]

theorem blank_congr (hnaming : theirs.naming = ours.naming) {type : ResolvedType}
    (h : ∀ name ∈ type.enumNames, theirs.enum? name = ours.enum? name) :
    theirs.blank type = ours.blank type := by
  induction type with
  | «enum» name =>
    rw [blank, blank, enumZero, enumZero, h name (List.mem_singleton.mpr rfl)]
    simp only [memberValue, hnaming]
  | reference key _ ih => exact ih h
  | _ => rfl

theorem ofLeaf_congr (hnaming : theirs.naming = ours.naming) {type : ResolvedType}
    (h : ∀ name ∈ type.enumNames, theirs.enum? name = ours.enum? name) (json : Json) :
    theirs.ofLeaf type json = ours.ofLeaf type json := by
  cases type with
  | «enum» name =>
    have htext := ofEnumText?_congr hnaming (h name (List.mem_singleton.mpr rfl))
    cases json <;> simp only [ofLeaf, htext]
  | _ => rfl

/-- A new record is the same in both sheets. -/
theorem SameRecord.zeroFields_eq (hnaming : theirs.naming = ours.naming)
    (h : SameRecord run user theirs owner ours root) {key : String}
    (hkey : ours.Reached root key) :
    theirs.zeroFields (.record key) = ours.zeroFields (.record key) := by
  rw [zeroFields, zeroFields, zero, zero, (h.records key hkey).1]
  cases hshape : ours.record? key with
  | none => rfl
  | some shape =>
    have hfields : shape.fields.map (fun field => (field.emitted, theirs.blank field.type))
        = shape.fields.map fun field => (field.emitted, ours.blank field.type) := by
      refine List.map_congr_left ?_
      intro field hfield
      rw [blank_congr hnaming (h.common_field hkey hshape hfield).enums]
    dsimp only
    rw [hfields]

mutual

/-- **A JSON tree is read alike in both sheets** against a type that names what is
reached. -/
theorem SameRecord.ofJson_eq (hnaming : theirs.naming = ours.naming)
    (h : SameRecord run user theirs owner ours root) : ∀ (json : Json) {type : ResolvedType},
    Common theirs ours root type → ofJson theirs json type = ofJson ours json type
  | .null, _, _ => by rw [ofJson, ofJson]
  | .bool b, _, htype => by
    rw [ofJson, ofJson]
    exact ofLeaf_congr hnaming htype.bare.enums _
  | .int n, _, htype => by
    rw [ofJson, ofJson]
    exact ofLeaf_congr hnaming htype.bare.enums _
  | .double x, _, htype => by
    rw [ofJson, ofJson]
    exact ofLeaf_congr hnaming htype.bare.enums _
  | .str s, _, htype => by
    rw [ofJson, ofJson]
    exact ofLeaf_congr hnaming htype.bare.enums _
  | .arr items, type, htype => by
    have hbare := htype.bare
    rw [ofJson, ofJson]
    cases hlist : type.bare with
    | list element =>
      rw [hlist] at hbare
      have helement : Common theirs ours root element := ⟨hbare.records, hbare.enums⟩
      dsimp only
      rw [h.ofItems_eq hnaming items helement]
    | _ => rfl
  | .obj members, type, htype => by
    have hbare := htype.bare
    rw [ofJson, ofJson]
    cases hrecord : type.bare with
    | record name =>
      rw [hrecord] at hbare
      have hkey := hbare.records name (List.mem_singleton.mpr rfl)
      dsimp only
      rw [(h.records name hkey).1]
      cases hshape : ours.record? name with
      | none => rfl
      | some shape =>
        dsimp only
        rw [h.ofMembers_eq hnaming hkey hshape members, h.zeroFields_eq hnaming hkey]
    | _ => rfl

theorem SameRecord.ofItems_eq (hnaming : theirs.naming = ours.naming)
    (h : SameRecord run user theirs owner ours root) : ∀ (items : List Json)
    {element : ResolvedType}, Common theirs ours root element →
      ofItems theirs items element = ofItems ours items element
  | [], _, _ => by rw [ofItems, ofItems]
  | item :: items, _, helement => by
    rw [ofItems, ofItems, h.ofJson_eq hnaming item helement, h.ofItems_eq hnaming items helement]

theorem SameRecord.ofMembers_eq (hnaming : theirs.naming = ours.naming)
    (h : SameRecord run user theirs owner ours root) {key : String}
    (hkey : ours.Reached root key) {shape : Shape} (hshape : ours.record? key = some shape)
    {unknown : Mismatch} : ∀ (members : List (String × Json)) {fields : List (String × Value)},
      ofMembers theirs unknown shape members fields = ofMembers ours unknown shape members fields
  | [], _ => by rw [ofMembers, ofMembers]
  | (name, item) :: members, fields => by
    rw [ofMembers, ofMembers, field?, field?, hnaming]
    cases hfield : shape.field? ours.naming name with
    | none => rfl
    | some field =>
      have hmem : field ∈ shape.fields := @field?_mem ours shape name field hfield
      dsimp only
      rw [h.ofJson_eq hnaming item (h.common_field hkey hshape hmem)]
      congr 1
      funext value
      exact h.ofMembers_eq hnaming hkey hshape members

end

/-- **Both sheets read the same data for a record that means the same in them.** -/
theorem SameRecord.ofText_eq (hnaming : theirs.naming = ours.naming)
    (h : SameRecord run user theirs owner ours root) (text : String) :
    theirs.ofText (.record root) text = ours.ofText (.record root) text := by
  rw [ofText, ofText]
  dsimp only [ResolvedType.bare]
  cases Json.read? text with
  | none => rfl
  | some json =>
    refine h.ofJson_eq hnaming json ⟨?_, ?_⟩
    · intro name hname
      cases List.mem_singleton.mp hname
      exact .root
    · intro name hname
      cases hname

end Shared

/-! ### Global records of a run -/

/-- **A global record in a sheet that uses it** is the one of its owner, and the catalog of
the sheet has a shape for it, field by field.  It means the same there exactly when every name
in it does.  In that case its records resolve in the sheet, whatever else the sheet declares,
what the sheet may lack is none of those names, and both read the same data for it. -/
theorem globalRecord_sameRecord_iff {run before after : List Schema} {owner user : Schema}
    {naming : NameStyle} {ours : Catalog} {userScope ownerScope : Scope} {block : Block}
    {record : RecordDecl} (hrun : run = before ++ owner :: after)
    (hsheets : (run.map Schema.sheet).Nodup) (huser : user ∈ run) (hne : user ≠ owner)
    (hours : ofSchemas owner run naming = .ok ours)
    (hownerScope : Scope.ofSchemas owner run naming = .ok ownerScope)
    (huserScope : Scope.ofSchemas user run naming = .ok userScope)
    (hrecord : (block, record) ∈ owner.records) (hglobal : record.isGlobal = true)
    (hown : ∀ entry ∈ user.declarations, entry.1.label ≠ block.label)
    (hfirst : ∀ other ∈ before, ∀ entry ∈ other.declarations,
      entry.1.label = block.label → entry.2.isGlobal = false) :
    user.home? run block.label = some (owner.sheet, .record record) ∧
    (NamesAgree run user userScope owner ownerScope record →
      (∀ key shape, ours.Reached block.label key → ours.record? key = some shape →
        ∃ inner, user.sees? run key = some (.record inner) ∧
          recordShape userScope naming inner = .ok shape) ∧
      ∀ name cell, ofSchemas user run naming = .error (.undefinedType name cell) →
        ¬ ownerScope.Mentions record name) ∧
    ∀ theirs, ofSchemas user run naming = .ok theirs →
      (user.Uses userScope block.label → ∃ shape, theirs.record? block.label = some shape) ∧
      ∀ shape, theirs.record? block.label = some shape → ∃ found,
        ours.record? block.label = some found ∧
        List.Forall₂ (FieldDecl.ResolvesTo userScope naming) record.fields shape.fields ∧
        List.Forall₂ (FieldDecl.ResolvesTo ownerScope naming) record.fields found.fields ∧
        (SameRecord run user theirs owner ours block.label ↔
          NamesAgree run user userScope owner ownerScope record) ∧
        (NamesAgree run user userScope owner ownerScope record → ∀ text,
          theirs.ofText (.record block.label) text = ours.ofText (.record block.label) text) := by
  obtain ⟨rfl, scope, hmade⟩ := madeIn_of_ofSchemas hours
  cases hmade.inScope.symm.trans hownerScope
  have hdeclared : (block, Declaration.record record) ∈ owner.declarations :=
    List.mem_append_right _ (List.mem_map.mpr ⟨(block, record), hrecord, rfl⟩)
  have hsheet : owner.sheet ≠ user.sheet := by
    intro heq
    have hmem : owner ∈ run := by rw [hrun]; simp
    exact hne (List.inj_on_of_nodup_map hsheets huser hmem heq.symm)
  -- both sheets find the record in its owner
  have hhome : user.home? run block.label = some (owner.sheet, .record record) := by
    rw [hrun] at hownerScope ⊢
    exact Schema.home?_of_global hownerScope hsheet hdeclared hglobal hown hfirst
  have hownHome := Schema.home?_of_mem_declarations hownerScope hdeclared
  have hroot := Schema.sees?_of_home? hownHome
  have hhomes : user.home? run block.label = owner.home? run block.label := by
    rw [hhome, hownHome]
  obtain ⟨found, hfound, hfields⟩ := hmade.closed.own _ hrecord
  refine ⟨hhome, ?_, ?_⟩
  · intro hagree
    exact ⟨fun key shape hkey => hagree.recordShape_of_reached huserScope hmade hroot hhomes hkey,
      fun name cell => hagree.not_mentions_of_error hmade huserScope hroot ⟨found, hfound⟩⟩
  · intro theirs htheirs
    obtain ⟨hnaming, scope', hmade'⟩ := madeIn_of_ofSchemas htheirs
    have hscope := hmade'.inScope
    rw [hnaming] at hscope
    cases hscope.symm.trans huserScope
    refine ⟨hmade'.exists_record?_of_uses, fun shape hshape => ?_⟩
    have hiff := sameRecord_iff hmade' hmade hnaming hroot hhomes ⟨shape, hshape⟩ ⟨found, hfound⟩
    have hused := hmade'.recordShape_of_record? (Schema.sees?_of_home? hhome) hshape
    rw [hnaming] at hused
    exact ⟨found, hfound, recordShape_eq_ok_iff.mp hused, hfields, hiff,
      fun hagree => (hiff.mpr hagree).ofText_eq hnaming⟩

end Catalog

/-! ### Samples -/

namespace KindSheets

def naming : NameStyle := ⟨.pascal, {}⟩

def kind : EnumDecl := ⟨true, .int, [⟨"A", none, 0, none, ⟨2, 0⟩⟩]⟩

def info : RecordDecl := ⟨true, [
  ⟨"Kind", .named "Kind", false, none, ⟨5, 0⟩, ⟨5, 1⟩⟩,
  ⟨"More", .list (.named "Info"), false, none, ⟨6, 0⟩, ⟨6, 1⟩⟩]⟩

def infoBlock : Block := ⟨some "Info", ["Global"], none, ⟨3, 0⟩, .record info⟩

/-- A global record with a field of a global enumeration. -/
def shared : Schema :=
  ⟨"Shared", [⟨some "Kind", ["Global"], none, ⟨0, 0⟩, .enum kind⟩, infoBlock]⟩

def design : Block := ⟨none, [], none, ⟨3, 0⟩, .design ⟨[], [
  ⟨"Id", .scalar .int, true, none, false, none, ⟨5, 0⟩, ⟨5, 1⟩⟩,
  ⟨"Info", .named "Info", false, none, false, none, ⟨6, 0⟩, ⟨6, 1⟩⟩]⟩⟩

def ownKind : EnumDecl := ⟨false, .int, [⟨"B", none, 0, none, ⟨2, 0⟩⟩]⟩

/-- A sheet that uses the record and has an enumeration of the same name of its own. -/
def item : Schema := ⟨"Item", [⟨some "Kind", [], none, ⟨0, 0⟩, .enum ownKind⟩, design]⟩

/-- A sheet that uses the record and has nothing else. -/
def card : Schema := ⟨"Card", [design]⟩

def run : List Schema := [shared, item, card]

/-- The same global record, beside an enumeration that only its own sheet sees. -/
def sealed : Schema := ⟨"Shared", [
  ⟨some "Kind", [], none, ⟨0, 0⟩, .enum { kind with isGlobal := false }⟩, infoBlock]⟩

def infoShape : Shape := ⟨[
  ⟨"Kind", "Kind", .enum "Kind", false⟩,
  ⟨"More", "More", .list (.record "Info"), false⟩]⟩

def entity : Shape :=
  ⟨[⟨"Id", "Id", .scalar .int, false⟩, ⟨"Info", "Info", .record "Info", false⟩]⟩

def sharedCatalog : Catalog := ⟨naming, [("Kind", kind)], [("Info", infoShape)], [], none, ⟨[]⟩⟩

def itemCatalog : Catalog :=
  ⟨naming, [("Kind", ownKind)], [("Info", infoShape)], [], some entity, ⟨[]⟩⟩

def cardCatalog : Catalog :=
  ⟨naming, [("Kind", kind)], [("Info", infoShape)], [], some entity, ⟨[]⟩⟩

def sharedScope : Scope := ⟨[("Kind", .enum kind), ("Info", .record info)], []⟩

def text : String := "\x7b\"Kind\": \"B\"\x7d"

theorem ofSchemas_shared : Catalog.ofSchemas shared run naming = .ok sharedCatalog := rfl

theorem ofSchemas_item : Catalog.ofSchemas item run naming = .ok itemCatalog := rfl

theorem ofSchemas_card : Catalog.ofSchemas card run naming = .ok cardCatalog := rfl

theorem not_sameRecord_item :
    ¬ Catalog.SameRecord run item itemCatalog shared sharedCatalog "Info" := by
  intro hsame
  have henum := (hsame.enums "Info" infoShape .root rfl "Kind" (by decide)).1
  revert henum
  decide

/-- **A global record need not mean the same in every sheet**: an enumeration of the sheet
that uses it hides the global one that its owner sees, and data is read against it.  Nor
need a sheet that uses it have a catalog: where its owner alone sees the enumeration, the
other one lacks it. -/
theorem globalRecord_differs :
    ((run.map Schema.sheet).Nodup ∧ (infoBlock, info) ∈ shared.records ∧ info.isGlobal = true ∧
      (∀ entry ∈ item.declarations, entry.1.label ≠ "Info") ∧
      Catalog.ofSchemas shared run naming = .ok sharedCatalog ∧
      Catalog.ofSchemas item run naming = .ok itemCatalog ∧
      itemCatalog.record? "Info" = some infoShape ∧
      ¬ Catalog.SameRecord run item itemCatalog shared sharedCatalog "Info" ∧
      (itemCatalog.ofText (.record "Info") text).isOk = true ∧
      (sharedCatalog.ofText (.record "Info") text).isOk = false) ∧
    ([sealed, card].map Schema.sheet).Nodup ∧ (infoBlock, info) ∈ sealed.records ∧
      (∀ entry ∈ card.declarations, entry.1.label ≠ "Info") ∧
      (Catalog.ofSchemas sealed [sealed, card] naming).isOk = true ∧
      Catalog.ofSchemas card [sealed, card] naming = .error (.undefinedType "Kind" ⟨5, 1⟩) := by
  exact ⟨⟨by decide, List.mem_singleton.mpr rfl, rfl, by decide, ofSchemas_shared, ofSchemas_item,
    rfl, not_sameRecord_item, by decide +kernel, by decide +kernel⟩, by decide,
    List.mem_singleton.mpr rfl, by decide, rfl, rfl⟩

theorem leaf_of_mem_info {field : FieldDecl} (hfield : field ∈ info.fields) {name : String}
    (hname : field.type.leaf = .named name) : name = "Kind" ∨ name = "Info" := by
  rcases List.mem_pair.mp hfield with rfl | rfl
  · cases hname
    exact Or.inl rfl
  · cases hname
    exact Or.inr rfl

theorem mentions_info {name : String} (h : sharedScope.Mentions info name) :
    name = "Kind" ∨ name = "Info" := by
  induction h with
  | here hfield hname => exact leaf_of_mem_info hfield hname
  | there _ hmeaning hfield hother ih =>
    rcases ih with rfl | rfl
    · cases hmeaning
    · cases hmeaning
      exact leaf_of_mem_info hfield hother

theorem namesAgree_card : Catalog.NamesAgree run card sharedScope shared sharedScope info := by
  intro name hname
  rcases mentions_info hname with rfl | rfl
  · rfl
  · rfl

theorem uses_card : card.Uses sharedScope "Info" :=
  ⟨.named "Info", "Info", info,
    @Schema.Reaches.design card sharedScope design _ _ rfl (List.mem_cons_of_mem _ (.head _)),
    rfl, rfl⟩

/-- In a sheet that declares neither of its names, the record means the same. -/
theorem sameRecord_card : Catalog.SameRecord run card cardCatalog shared sharedCatalog "Info" ∧
    ∀ text, cardCatalog.ofText (.record "Info") text
      = sharedCatalog.ofText (.record "Info") text := by
  have hall := @Catalog.globalRecord_sameRecord_iff run [] [item, card] shared card naming
    sharedCatalog sharedScope sharedScope infoBlock info rfl (by decide) (by decide) (by decide)
    ofSchemas_shared rfl rfl (List.mem_singleton.mpr rfl) rfl (by decide) (by simp)
  obtain ⟨hheld, hshapes⟩ := hall.2.2 cardCatalog ofSchemas_card
  obtain ⟨shape, hshape⟩ := hheld uses_card
  obtain ⟨_, -, -, -, hiff, hread⟩ := hshapes shape hshape
  exact ⟨hiff.mpr namesAgree_card, hread namesAgree_card⟩

end KindSheets
end TypedSheets

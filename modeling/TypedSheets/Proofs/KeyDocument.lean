import TypedSheets.Proofs.Document
import TypedSheets.Proofs.RowOutcome

/-!
# Keys as they are written

No two rows of a sheet have the same key, but a reader of the data sees keys only as they
are written.  Writing forgets little: that a list is absent and not empty, since a list
is always written as an array, and the kind of an integer.  Conforming values that are
written alike differ in nothing else, and of the kinds of integers only in that of a
zero.

## Main definitions

* `Catalog.Alike` — values that agree up to absent lists and a relation of their leaves.
* `Value.SameUpToKind` — leaves that agree up to the kind of a zero.
* `Catalog.keyDocument` — the key of a row as it is written.

## Main results

* `Catalog.alike_of_typed_eq`, `Catalog.typed_eq_of_alike` — values that are written alike.
* `Catalog.readRows_keyDocument` — **which rows write the same key.**
-/

namespace TypedSheets

/-- The same value, or zero in either kind of integers where the type has both. -/
def Value.SameUpToKind (type : ResolvedType) (a b : Value) : Prop :=
  a = b ∨ type.bare = .scalar .ulong ∧ (a = .int 0 ∧ b = .uint 0 ∨ a = .uint 0 ∧ b = .int 0)

namespace Catalog

/-- Values of a type that agree except that a list may be absent in one and empty in the
other, and that other parts may be related in a given way.  A field that is left out when
it has no value has one in both records or in none. -/
inductive Alike (catalog : Catalog) (related : ResolvedType → Value → Value → Prop) :
    ResolvedType → Value → Value → Prop
  | related {type : ResolvedType} {a b : Value} (h : related type a b) :
      Alike catalog related type a b
  | absentEmpty {type : ResolvedType} (h : type.bare.isList = true) :
      Alike catalog related type .null (.list [])
  | emptyAbsent {type : ResolvedType} (h : type.bare.isList = true) :
      Alike catalog related type (.list []) .null
  | list {type element : ResolvedType} {as bs : List Value} (h : type.bare = .list element)
      (length : as.length = bs.length)
      (items : ∀ (i : Nat) (a b : Value), as[i]? = some a → bs[i]? = some b →
        Alike catalog related element a b) :
      Alike catalog related type (.list as) (.list bs)
  | record {type : ResolvedType} {name : String} {shape : Shape} {as bs : List (String × Value)}
      (h : type.bare = .record name) (found : catalog.record? name = some shape)
      (present : ∀ field ∈ shape.fields, field.optional = true →
        ((Value.record as).slot field.emitted).isNull
          = ((Value.record bs).slot field.emitted).isNull)
      (slots : ∀ field ∈ shape.fields, Alike catalog related field.type
        ((Value.record as).slot field.emitted) ((Value.record bs).slot field.emitted)) :
      Alike catalog related type (.record as) (.record bs)

variable {catalog : Catalog}

/-! ### Values that are alike are written alike -/

theorem typed_eq_of_alike {type : ResolvedType} {a b : Value}
    (h : catalog.Alike (fun _ => Eq) type a b) :
    a.typed catalog type = b.typed catalog type := by
  induction h with
  | related h => rw [h]
  | @absentEmpty type h =>
    cases htype : type.bare with
    | list element => simp [Value.typed, Value.typedNull, Value.typedList, htype,
        ResolvedType.isList]
    | _ => simp [htype, ResolvedType.isList] at h
  | @emptyAbsent type h =>
    cases htype : type.bare with
    | list element => simp [Value.typed, Value.typedNull, Value.typedList, htype,
        ResolvedType.isList]
    | _ => simp [htype, ResolvedType.isList] at h
  | @list type element as bs h length items ih =>
    rw [Value.typed_list h, Value.typed_list h, Value.typedList_eq_map, Value.typedList_eq_map]
    congr 1
    -- item by item, since the lists are of one length
    refine List.ext_getElem (by simpa using length) ?_
    intro i hi _
    rw [List.length_map] at hi
    have hi' : i < bs.length := length ▸ hi
    rw [List.getElem_map, List.getElem_map]
    exact ih i as[i] bs[i] (List.getElem?_eq_getElem hi) (List.getElem?_eq_getElem hi')
  | @record type name shape as bs h found present slots ih =>
    rw [Value.typed_record h found, Value.typed_record h found, Shape.members_writers,
      Shape.members_writers]
    congr 1
    -- field by field: written for both or left out for both
    refine List.filterMap_congr ?_
    intro field hfield
    rw [Field.written?_eq_iff.mpr ⟨present field hfield, ih field hfield⟩]

/-! ### Conforming values that are written alike are alike -/

/-- Leaves that are written as the same tree. -/
theorem sameUpToKind_of_typed_eq {type : ResolvedType} {a b : Value} (hleaf : a.isLeaf = true)
    (ha : catalog.Conforms type a) (hb : catalog.Conforms type b)
    (h : a.typed catalog type = b.typed catalog type) : Value.SameUpToKind type a b := by
  have hleaf' : b.isLeaf = true := by
    rw [← Value.isLeaf_typed catalog b type, ← h, Value.isLeaf_typed, hleaf]
  cases a with
  | null => cases hleaf
  | list items => cases hleaf
  | record fields => cases hleaf
  | bool x =>
    cases b with
    | bool y => exact Or.inl (by simpa [Value.typed] using h)
    | _ => simp [Value.typed, Value.isLeaf] at h hleaf'
  | float x =>
    cases b with
    | float y => exact Or.inl (by simpa [Value.typed] using h)
    | _ => simp [Value.typed, Value.isLeaf] at h hleaf'
  | int n =>
    cases b with
    | int m => exact Or.inl (by simpa [Value.typed] using h)
    | uint m =>
      -- the kinds overlap in zero only
      obtain rfl : n = m := by simpa [Value.typed] using h
      obtain ⟨htype, rfl⟩ := ha.eq_zero_of_int_of_uint hb
      exact Or.inr ⟨htype, Or.inl ⟨rfl, rfl⟩⟩
    | _ => simp [Value.typed, Value.isLeaf] at h hleaf'
  | uint n =>
    cases b with
    | uint m => exact Or.inl (by simpa [Value.typed, Int.natCast_inj] using h)
    | int m =>
      obtain rfl : n = m := by simpa [Value.typed] using h
      obtain ⟨htype, rfl⟩ := hb.eq_zero_of_int_of_uint ha
      exact Or.inr ⟨htype, Or.inr ⟨rfl, rfl⟩⟩
    | _ => simp [Value.typed, Value.isLeaf] at h hleaf'
  | str text =>
    cases b with
    | str other => exact Or.inl (by simpa [Value.typed] using h)
    | enum name =>
      -- both are written as strings, but no slot may hold either
      exact absurd hb ha.not_enum_of_str
    | _ => simp [Value.typed, Value.isLeaf] at h hleaf'
  | enum name =>
    cases b with
    | enum other => exact Or.inl (by simpa [Value.typed] using h)
    | str text => exact absurd ha hb.not_enum_of_str
    | _ => simp [Value.typed, Value.isLeaf] at h hleaf'

theorem alike_of_isLeaf {type : ResolvedType} {a b : Value} (hleaf : a.isLeaf = true)
    (ha : catalog.Conforms type a) (hb : catalog.Conforms type b)
    (h : a.typed catalog type = b.typed catalog type) :
    catalog.Alike Value.SameUpToKind type a b :=
  .related (sameUpToKind_of_typed_eq hleaf ha hb h)

/-- What is written as nothing is: nothing, or an empty list in the place of a list. -/
theorem eq_null_or_nil_of_typed {type : ResolvedType} {b : Value}
    (hb : catalog.Conforms type b) (h : Value.typedNull type = b.typed catalog type) :
    b = .null ∨ type.bare.isList = true ∧ b = .list [] := by
  -- neither `null` nor an empty array is a leaf
  have hleaf : b.isLeaf = false := by
    rw [← Value.isLeaf_typed catalog b type, ← h]
    exact Value.isLeaf_typed catalog .null type
  cases b with
  | null => exact Or.inl rfl
  | list items =>
    obtain ⟨element, htype, -⟩ := hb.exists_element
    have hlist : type.bare.isList = true := by rw [htype]; rfl
    rw [Value.typed_list htype, Value.typedNull, if_pos hlist, Json.arr.injEq,
      Value.typedList_eq_map, eq_comm, List.map_eq_nil_iff] at h
    exact Or.inr ⟨hlist, by rw [h]⟩
  | record fields =>
    obtain ⟨name, shape, htype, found, -⟩ := hb.exists_shape
    rw [Value.typed_record htype found, Value.typedNull, htype] at h
    cases h
  | _ => cases hleaf

mutual

/-- **Conforming values that are written alike are alike.** -/
theorem alike_of_typed_eq (hdistinct : catalog.DistinctNames) : ∀ (a : Value) {b : Value}
    {type : ResolvedType}, catalog.Conforms type a → catalog.Conforms type b →
      a.typed catalog type = b.typed catalog type →
        catalog.Alike Value.SameUpToKind type a b
  | .bool _, _, _, ha, hb, h => alike_of_isLeaf rfl ha hb h
  | .int _, _, _, ha, hb, h => alike_of_isLeaf rfl ha hb h
  | .uint _, _, _, ha, hb, h => alike_of_isLeaf rfl ha hb h
  | .float _, _, _, ha, hb, h => alike_of_isLeaf rfl ha hb h
  | .str _, _, _, ha, hb, h => alike_of_isLeaf rfl ha hb h
  | .enum _, _, _, ha, hb, h => alike_of_isLeaf rfl ha hb h
  | .null, b, type, _, hb, h => by
    rcases eq_null_or_nil_of_typed hb h with rfl | ⟨hlist, rfl⟩
    · exact .related (Or.inl rfl)
    · exact .absentEmpty hlist
  | .list as, b, type, ha, hb, h => by
    obtain ⟨element, htype, has⟩ := ha.exists_element
    rcases Value.eq_null_or_list_of_typed ((Value.typed_list htype as).symm.trans h).symm with
      rfl | ⟨bs, rfl⟩
    · rcases eq_null_or_nil_of_typed ha h.symm with hnull | ⟨hlist, hnil⟩
      · cases hnull
      · rw [hnil]
        exact .emptyAbsent hlist
    · obtain ⟨element', htype', hbs⟩ := hb.exists_element
      obtain rfl := ResolvedType.list.inj (htype.symm.trans htype')
      rw [Value.typed_list htype, Value.typed_list htype, Json.arr.injEq] at h
      obtain ⟨length, items⟩ := alike_of_typedList_eq hdistinct as bs has hbs h
      exact .list htype length items
  | .record as, b, type, ha, hb, h => by
    obtain ⟨name, shape, htype, found, has⟩ := ha.exists_shape
    obtain ⟨bs, rfl⟩ :=
      Value.exists_record_of_typed ((Value.typed_record htype found as).symm.trans h).symm
    obtain ⟨name', shape', htype', found', hbs⟩ := hb.exists_shape
    obtain rfl := ResolvedType.record.inj (htype.symm.trans htype')
    obtain rfl := Option.some.inj (found.symm.trans found')
    rw [Value.typed_record htype found, Value.typed_record htype found, Json.obj.injEq,
      Shape.members_eq_iff (hdistinct.of_record found)] at h
    have hwritten := fun field hfield => Field.written?_eq_iff.mp (h field hfield)
    refine .record htype found (fun field hfield => (hwritten field hfield).1) ?_
    intro field hfield
    -- both records hold something in every field of the shape
    obtain ⟨a, hget, ha⟩ := has.exists_get? hfield
    obtain ⟨b, hget', hb⟩ := hbs.exists_get? hfield
    have htyped := (hwritten field hfield).2
    rw [Value.slot_record hget, Value.slot_record hget'] at htyped ⊢
    exact alike_of_get? hdistinct as hget ha hb htyped

theorem alike_of_typedList_eq (hdistinct : catalog.DistinctNames) : ∀ (as bs : List Value)
    {element : ResolvedType}, (∀ a ∈ as, catalog.Conforms element a) →
      (∀ b ∈ bs, catalog.Conforms element b) →
      Value.typedList catalog as element = Value.typedList catalog bs element →
        as.length = bs.length ∧ ∀ (i : Nat) (a b : Value), as[i]? = some a → bs[i]? = some b →
          catalog.Alike Value.SameUpToKind element a b
  | [], bs, element, _, _, h => by
    cases bs with
    | nil => exact ⟨rfl, by simp⟩
    | cons b bs => simp [Value.typedList] at h
  | a :: as, bs, element, has, hbs, h => by
    cases bs with
    | nil => simp [Value.typedList] at h
    | cons b bs =>
      rw [Value.typedList, Value.typedList, List.cons.injEq] at h
      rw [List.forall_mem_cons] at has hbs
      have hhead := alike_of_typed_eq hdistinct a has.1 hbs.1 h.1
      obtain ⟨length, items⟩ := alike_of_typedList_eq hdistinct as bs has.2 hbs.2 h.2
      refine ⟨by simp [length], ?_⟩
      intro i x y hx hy
      cases i with
      | zero =>
        cases hx
        cases hy
        exact hhead
      | succ i => exact items i x y hx hy

theorem alike_of_get? (hdistinct : catalog.DistinctNames) : ∀ (fields : List (String × Value))
    {name : String} {a b : Value} {type : ResolvedType}, OrderedMap.get? fields name = some a →
      catalog.Conforms type a → catalog.Conforms type b →
      a.typed catalog type = b.typed catalog type → catalog.Alike Value.SameUpToKind type a b
  | [], _, _, _, _, hget, _, _, _ => by cases hget
  | (key, value) :: fields, name, a, b, type, hget, ha, hb, h => by
    by_cases hkey : key = name
    · rw [OrderedMap.get?, if_pos hkey, Option.some.injEq] at hget
      subst hget
      exact alike_of_typed_eq hdistinct value ha hb h
    · rw [OrderedMap.get?, if_neg hkey] at hget
      exact alike_of_get? hdistinct fields hget ha hb h

end

/-! ### Keys of rows -/

/-- The key of a row as it is written: what stands under the names of its key fields.  A
field that is left out has nothing there. -/
def keyDocument (catalog : Catalog) (shape : Shape) (keys : List String) (row : Value) :
    List (Option Json) :=
  keys.map fun name =>
    match row.shaped catalog shape with
    | .obj members => OrderedMap.get? members name
    | _ => none

/-- Rows whose key fields hold values that are alike. -/
def AlikeKeys (catalog : Catalog) (related : ResolvedType → Value → Value → Prop) (shape : Shape)
    (keys : List String) (a b : Value) : Prop :=
  ∀ field ∈ shape.fields, field.emitted ∈ keys →
    (field.optional = true → (a.slot field.emitted).isNull = (b.slot field.emitted).isNull) ∧
      catalog.Alike related field.type (a.slot field.emitted) (b.slot field.emitted)

/-- Two rows write the same key when each key field is written the same way for both. -/
theorem keyDocument_eq_iff {shape : Shape} (hnames : shape.names.Nodup) {keys : List String}
    {a b : Value} (ha : catalog.RowConforms shape a) (hb : catalog.RowConforms shape b) :
    catalog.keyDocument shape keys a = catalog.keyDocument shape keys b ↔
      ∀ field ∈ shape.fields, field.emitted ∈ keys →
        field.written? catalog (a.slot field.emitted)
          = field.written? catalog (b.slot field.emitted) := by
  obtain ⟨as, rfl, -⟩ := ha
  obtain ⟨bs, rfl, -⟩ := hb
  rw [keyDocument, keyDocument, List.map_inj_left]
  simp only [Value.shaped]
  constructor
  · intro h field hfield hkey
    rw [← Shape.get?_members hnames hfield, ← Shape.get?_members hnames hfield]
    exact h field.emitted hkey
  · intro h name hkey
    -- a key name that is no field has nothing written under it in either row
    by_cases hname : name ∈ shape.names
    · obtain ⟨field, hfield, rfl⟩ := List.mem_map.mp hname
      rw [Shape.get?_members hnames hfield, Shape.get?_members hnames hfield]
      exact h field hfield hkey
    · rw [Shape.get?_members_of_not_mem hname, Shape.get?_members_of_not_mem hname]

theorem alikeKeys_of_keyDocument_eq (hdistinct : catalog.DistinctNames) {shape : Shape}
    (hnames : shape.names.Nodup) {keys : List String} {a b : Value}
    (ha : catalog.RowConforms shape a) (hb : catalog.RowConforms shape b)
    (h : catalog.keyDocument shape keys a = catalog.keyDocument shape keys b) :
    catalog.AlikeKeys Value.SameUpToKind shape keys a b := by
  intro field hfield hkey
  have hwritten := (keyDocument_eq_iff hnames ha hb).mp h field hfield hkey
  obtain ⟨hpresent, htyped⟩ := Field.written?_eq_iff.mp hwritten
  exact ⟨hpresent, alike_of_typed_eq hdistinct _ (ha.conforms_slot hfield)
    (hb.conforms_slot hfield) htyped⟩

theorem keyDocument_eq_of_alikeKeys {shape : Shape} (hnames : shape.names.Nodup)
    {keys : List String} {a b : Value} (ha : catalog.RowConforms shape a)
    (hb : catalog.RowConforms shape b) (h : catalog.AlikeKeys (fun _ => Eq) shape keys a b) :
    catalog.keyDocument shape keys a = catalog.keyDocument shape keys b := by
  refine (keyDocument_eq_iff hnames ha hb).mpr ?_
  intro field hfield hkey
  obtain ⟨hpresent, halike⟩ := h field hfield hkey
  exact Field.written?_eq_iff.mpr ⟨hpresent, typed_eq_of_alike halike⟩

/-- **Which rows write the same key.**  For every catalog whose shapes have distinct names,
every list of plans made from a row of paths and all data rows that are read: the keys of
two rows are never the same.  They are written differently, too, unless they differ only
where a list is absent in one and empty in the other, or in the kind of a zero; and keys
that differ in absent lists alone are written alike. -/
theorem readRows_keyDocument {entity : Shape} {plans : List Plan} {dialect : Dialect}
    {paths : View} {pathRow : Nat} (hdistinct : catalog.DistinctNames)
    (hentity : catalog.entity = some entity)
    (hplans : Plan.ofRow dialect catalog entity paths pathRow = .ok plans)
    {view : View} {keys : List String} {rows : List Nat} {values : List Value}
    (hread : catalog.readRows view entity plans keys rows [] = .ok values)
    {i j : Nat} (hne : i ≠ j) {a b : Value} (ha : values[i]? = some a)
    (hb : values[j]? = some b) :
    (keyOf keys a).same (keyOf keys b) = false ∧
    (catalog.keyDocument entity keys a = catalog.keyDocument entity keys b →
      catalog.AlikeKeys Value.SameUpToKind entity keys a b) ∧
    (catalog.AlikeKeys (fun _ => Eq) entity keys a b →
      catalog.keyDocument entity keys a = catalog.keyDocument entity keys b) := by
  have hnames := hdistinct.1 entity hentity
  have hsound := Plan.sound_of_ofRow hplans
  -- both rows conform, so what is written for their keys tells how far they agree
  obtain ⟨-, hconforms⟩ := readRows_conforms hdistinct hnames hsound rows [] hread
  have hrow := hconforms a (List.mem_of_getElem? ha)
  have hrow' := hconforms b (List.mem_of_getElem? hb)
  exact ⟨same_eq_false_of_readRows hdistinct hnames hsound hread hne ha hb,
    alikeKeys_of_keyDocument_eq hdistinct hnames hrow hrow',
    keyDocument_eq_of_alikeKeys hnames hrow hrow'⟩

end Catalog

/-! ### Sheets that write a key twice

What the theorem above leaves open does occur: two rows that are read write the same key
because a list is absent in one of them and empty in the other, because one has the zero
that a list was filled up with and the other a zero that was read, or because two columns
share a generated name. -/

/-- A sheet of two columns with a row of paths above two data rows. -/
structure PairSheet where
  naming : NameStyle := ⟨.pascal, {}⟩
  schema : Schema
  enums : List (String × EnumDecl) := []
  aliases : List (String × String) := []
  shape : Shape
  cells : Array (Array (Option String))
  plans : List Plan
  /-- The generated name of its key field. -/
  key : String

namespace PairSheet

def catalog (sheet : PairSheet) : Catalog :=
  ⟨sheet.naming, sheet.enums, [], sheet.aliases, some sheet.shape, ⟨[]⟩⟩

def view (sheet : PairSheet) : View := ⟨⟨sheet.cells⟩, 0, 0, 3, 2⟩

/-- The catalog and the plans of a sheet are its own, both rows are read, and they write
the same key. -/
def WritesKeyTwice (sheet : PairSheet) : Prop :=
  Catalog.ofSchemas sheet.schema [] sheet.naming = .ok sheet.catalog ∧
  Plan.ofRow default sheet.catalog sheet.shape sheet.view 0 = .ok sheet.plans ∧
  ∃ a b, sheet.catalog.readRows sheet.view sheet.shape sheet.plans [sheet.key] [1, 2] []
      = .ok [a, b] ∧
    sheet.catalog.keyDocument sheet.shape [sheet.key] a
      = sheet.catalog.keyDocument sheet.shape [sheet.key] b

def design (fields : List EntityField) : Block := ⟨none, [], none, ⟨3, 0⟩, .design ⟨[], fields⟩⟩

/-- Routes with a list as their key that may be absent. -/
def routes : PairSheet where
  schema := ⟨"Route", [design [
    ⟨"Note", .scalar .string, false, none, false, none, ⟨5, 0⟩, ⟨5, 1⟩⟩,
    ⟨"Stops", .nullable (.list (.scalar .int)), true, none, false, none, ⟨6, 0⟩, ⟨6, 1⟩⟩]]⟩
  shape := ⟨[
    ⟨"Note", "Note", .scalar .string, false⟩,
    ⟨"Stops", "Stops", .nullable (.list (.scalar .int)), false⟩]⟩
  cells := #[#[some "Note", some "Stops"], #[some "x", some "[]"], #[some "y", none]]
  plans := [
    ⟨0, "Note", [.field "Note" (.scalar .string)], .scalar .string⟩,
    ⟨1, "Stops", [.field "Stops" (.nullable (.list (.scalar .int)))],
      .nullable (.list (.scalar .int))⟩]
  key := "Stops"

/-- Counts with a list as their key, the second item of which is written first. -/
def counts : PairSheet where
  schema := ⟨"Stock", [design [
    ⟨"Counts", .list (.scalar .ulong), true, none, false, none, ⟨5, 0⟩, ⟨5, 1⟩⟩]]⟩
  shape := ⟨[⟨"Counts", "Counts", .list (.scalar .ulong), false⟩]⟩
  cells := #[#[some "Counts[1]", some "Counts[0]"], #[some "5", none], #[some "5", some "0"]]
  plans := [
    ⟨0, "Counts[1]", [.field "Counts" (.list (.scalar .ulong)), .index 1 (.scalar .ulong)],
      .scalar .ulong⟩,
    ⟨1, "Counts[0]", [.field "Counts" (.list (.scalar .ulong)), .index 0 (.scalar .ulong)],
      .scalar .ulong⟩]
  key := "Counts"

def kinds : EnumDecl := ⟨false, .int, [⟨"x", some 0, 0, none, ⟨2, 0⟩⟩]⟩

/-- Labels, the columns of which share a generated name. -/
def labels : PairSheet where
  naming := ⟨.lowerSnake, {}⟩
  schema := ⟨"Label", [
    ⟨some "kind", [], none, ⟨0, 0⟩, .enum kinds⟩,
    design [
      ⟨"a_b", .nullable (.scalar .string), true, none, false, none, ⟨5, 0⟩, ⟨5, 1⟩⟩,
      ⟨"a__b", .nullable (.named "kind"), false, none, false, none, ⟨6, 0⟩, ⟨6, 1⟩⟩]]⟩
  enums := [("kind", kinds)]
  aliases := [("Kind", "kind")]
  shape := ⟨[
    ⟨"a_b", "AB", .nullable (.scalar .string), false⟩,
    ⟨"a__b", "AB", .nullable (.enum "kind"), false⟩]⟩
  cells := #[#[some "a_b", some "a__b"], #[some "X", none], #[none, some "x"]]
  plans := [
    ⟨0, "a_b", [.field "AB" (.nullable (.scalar .string))], .nullable (.scalar .string)⟩,
    ⟨1, "a__b", [.field "AB" (.nullable (.enum "kind"))], .nullable (.enum "kind")⟩]
  key := "AB"

theorem readRows_routes :
    routes.catalog.readRows routes.view routes.shape routes.plans ["Stops"] [1, 2] [] = .ok [
      .record [("Note", .str "x"), ("Stops", .list [])],
      .record [("Note", .str "y"), ("Stops", .null)]] :=
  rfl

theorem readRows_counts :
    counts.catalog.readRows counts.view counts.shape counts.plans ["Counts"] [1, 2] [] = .ok [
      .record [("Counts", .list [.uint 0, .int 5])],
      .record [("Counts", .list [.int 0, .int 5])]] :=
  rfl

theorem readRows_labels :
    labels.catalog.readRows labels.view labels.shape labels.plans ["AB"] [1, 2] [] = .ok [
      .record [("AB", .str "X")], .record [("AB", .enum "X")]] :=
  rfl

/-- **Keys that are not the same may be written alike.** -/
theorem writesKeyTwice_samples :
    routes.WritesKeyTwice ∧ counts.WritesKeyTwice ∧ labels.WritesKeyTwice :=
  ⟨⟨rfl, rfl, _, _, readRows_routes, rfl⟩, ⟨rfl, rfl, _, _, readRows_counts, rfl⟩,
    ⟨rfl, rfl, _, _, readRows_labels, rfl⟩⟩

/-- The two routes have keys that are not the same, and write the same key. -/
theorem readRows_keyDocument_routes :
    ((⟨[.list []]⟩ : Key).same ⟨[.null]⟩ = false) ∧
      routes.catalog.keyDocument routes.shape ["Stops"]
          (.record [("Note", .str "x"), ("Stops", .list [])])
        = routes.catalog.keyDocument routes.shape ["Stops"]
          (.record [("Note", .str "y"), ("Stops", .null)]) := by
  have hkeys := Catalog.readRows_keyDocument (by decide : routes.catalog.DistinctNames) rfl
    (rfl : Plan.ofRow default routes.catalog routes.shape routes.view 0 = .ok routes.plans)
    readRows_routes (by decide : 0 ≠ 1) rfl rfl
  refine ⟨hkeys.1, hkeys.2.2 ?_⟩
  intro field hfield hkey
  rcases List.mem_cons.mp hfield with rfl | hfield
  · exact absurd hkey (by decide)
  · obtain rfl := List.mem_singleton.mp hfield
    refine ⟨?_, .emptyAbsent rfl⟩
    intro hoptional
    cases hoptional

end PairSheet
end TypedSheets

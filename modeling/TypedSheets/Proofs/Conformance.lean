import Mathlib.Data.List.Nodup
import TypedSheets.Data.Rows
import TypedSheets.Proofs.OrderedMap

/-!
# Values that conform to a type

What a slot of a given type may hold once rows are read.  A text and a record may be
left out anywhere, other values only under `?`; a list never is, unless its type says
so.  Integers lie inside the range of their type and fractional numbers are finite, so
nothing that was cut to a range conforms.

The relation looks records up by name, so it covers types that mention themselves.

## Main definitions

* `Shape.names`, `Catalog.DistinctNames` — generated names, and that they differ.
* `Scalar.Admits`, `Catalog.EnumAdmits` — the values of scalars and enumerations.
* `Catalog.Conforms` — **the values of a type.**
* `Catalog.RowConforms` — the rows of a shape.

## Main results

* `Catalog.Conforms.of_bare`, `Catalog.Conforms.bare_of_ne_null` — `?` and references
  only add the absence of a value.
* `Catalog.Conforms.cases_of_ne_null` — which types a value that is there can have.
* `Catalog.zero_conforms`, `Catalog.filler_conforms`, `Catalog.newRow_conforms` — values
  nothing was written to conform.
* `Catalog.RowConforms.insert` — writing a conforming value to a field keeps a row
  conforming.
-/

namespace TypedSheets

/-! ### Generated names -/

/-- The names under which the fields of a shape are written, in the order of the sheet. -/
def Shape.names (shape : Shape) : List String := shape.fields.map Field.emitted

theorem Shape.emitted_mem_names {shape : Shape} {field : Field} (h : field ∈ shape.fields) :
    field.emitted ∈ shape.names := List.mem_map_of_mem h

/-- The fields of every shape of a catalog have names of their own. -/
def Catalog.DistinctNames (catalog : Catalog) : Prop :=
  (∀ shape ∈ catalog.entity, shape.names.Nodup) ∧ catalog.constants.names.Nodup ∧
    ∀ entry ∈ catalog.records, entry.2.names.Nodup

instance (catalog : Catalog) : Decidable catalog.DistinctNames :=
  inferInstanceAs (Decidable (_ ∧ _ ∧ _))

theorem Catalog.DistinctNames.of_record {catalog : Catalog} (h : catalog.DistinctNames)
    {name : String} {shape : Shape} (hshape : catalog.record? name = some shape) :
    shape.names.Nodup :=
  h.2.2 _ (OrderedMap.mem_of_get? hshape)

/-- A field is the only one of its name. -/
theorem Shape.eq_of_emitted_eq {shape : Shape} (h : shape.names.Nodup) {a b : Field}
    (ha : a ∈ shape.fields) (hb : b ∈ shape.fields) (heq : a.emitted = b.emitted) : a = b :=
  List.inj_on_of_nodup_map h ha hb heq

theorem Shape.ofList_fields {shape : Shape} (hnames : shape.names.Nodup)
    (value : ResolvedType → Value) :
    OrderedMap.ofList (shape.fields.map fun field => (field.emitted, value field.type))
      = shape.fields.map fun field => (field.emitted, value field.type) := by
  refine OrderedMap.ofList_eq_self ?_
  rw [List.map_map]
  exact hnames

/-- A record made field by field holds in each field what was made for it. -/
theorem Shape.get?_ofList {shape : Shape} (hnames : shape.names.Nodup)
    (value : ResolvedType → Value) {field : Field} (hfield : field ∈ shape.fields) :
    OrderedMap.get? (OrderedMap.ofList
      (shape.fields.map fun field => (field.emitted, value field.type))) field.emitted
        = some (value field.type) := by
  rw [ofList_fields hnames]
  exact OrderedMap.get?_map_of_nodup (fun f : Field => value f.type) hnames hfield

/-! ### Scalars and enumerations -/

/-- The values a slot of a scalar type may hold.  An unsigned integer is the zero that
a slot of the widest unsigned type has before it is written to, or too large for a
signed one. -/
def Scalar.Admits (s : Scalar) : Value → Prop
  | .null => s = .string
  | .bool _ => s = .bool
  | .int n => s.holds n = true ∧ Value.minInt ≤ n ∧ n ≤ Value.maxInt
  | .uint n => s.holds n = true ∧ (s = .ulong ∧ n = 0 ∨ Value.maxInt < n)
  | .float x =>
    x.isFinite = true ∧ (s = .double ∨ s = .decimal ∨ s = .float ∧ x.fitsSingle = true)
  | .str text =>
    s = .string ∨
      s = .char ∧ text.toList.length = 1 ∧ ∀ c ∈ text.toList, Text.isBlankChar c = false
  | .enum _ | .list _ | .record _ => False

instance (s : Scalar) : (value : Value) → Decidable (s.Admits value)
  | .null => inferInstanceAs (Decidable (_ = _))
  | .bool _ => inferInstanceAs (Decidable (_ = _))
  | .int _ => inferInstanceAs (Decidable (_ ∧ _ ∧ _))
  | .uint _ => inferInstanceAs (Decidable (_ ∧ (_ ∧ _ ∨ _)))
  | .float _ => inferInstanceAs (Decidable (_ ∧ (_ ∨ _ ∨ _ ∧ _)))
  | .str text =>
    inferInstanceAs (Decidable (_ ∨ _ ∧ _ ∧ ∀ c ∈ text.toList, Text.isBlankChar c = false))
  | .enum _ | .list _ | .record _ => inferInstanceAs (Decidable False)

/-- **The zero of a scalar type is one of its values.** -/
theorem Scalar.admits_zero (s : Scalar) : s.Admits s.zero := by
  cases s with
  | bool => rfl
  | string => exact Or.inl rfl
  | char =>
    refine Or.inr ⟨rfl, rfl, ?_⟩
    intro c hc
    obtain rfl := List.mem_singleton.mp hc
    rfl
  | float => exact ⟨rfl, Or.inr (Or.inr ⟨rfl, by
      simp [Double.fitsSingle, Double.magnitudeLe, Double.zero]⟩)⟩
  | double => exact ⟨rfl, Or.inl rfl⟩
  | decimal => exact ⟨rfl, Or.inr (Or.inl rfl)⟩
  | ulong => exact ⟨rfl, Or.inl ⟨rfl, rfl⟩⟩
  | _ => exact ⟨rfl, by decide⟩

namespace Catalog

/-- The numbers a slot of an enumeration may hold: zero and the numbers of its integer
type, as far as no member has them. -/
def HoldsNumber (catalog : Catalog) (name : String) (n : Int) : Prop :=
  (n = 0 ∨ ∃ block, catalog.enum? name = some block ∧ block.backing.holds n = true) ∧
    ∀ block, catalog.enum? name = some block → ∀ member ∈ block.members, member.value ≠ n

/-- The values a slot of an enumeration may hold: the generated name of a member, or a
number that no member has. -/
def EnumAdmits (catalog : Catalog) (name : String) : Value → Prop
  | .enum text => ∃ block, catalog.enum? name = some block ∧
      ∃ member ∈ block.members, catalog.naming.enumMember member.name = text
  | .int n => catalog.HoldsNumber name n ∧ Value.minInt ≤ n ∧ n ≤ Value.maxInt
  | .uint n => catalog.HoldsNumber name n ∧ Value.maxInt < n
  | _ => False

/-! ### The relation -/

/-- The values of a type. -/
inductive Conforms (catalog : Catalog) : ResolvedType → Value → Prop
  | scalar {s : Scalar} {value : Value} (h : s.Admits value) : Conforms catalog (.scalar s) value
  | enum {name : String} {value : Value} (h : catalog.EnumAdmits name value) :
      Conforms catalog (.enum name) value
  /-- A record may be left out. -/
  | noRecord {name : String} : Conforms catalog (.record name) .null
  /-- A record holds the names of its shape, in their order, and conforming values. -/
  | record {name : String} {shape : Shape} {fields : List (String × Value)}
      (found : catalog.record? name = some shape)
      (names : fields.map Prod.fst = shape.names)
      (values : ∀ field ∈ shape.fields, ∀ value,
        OrderedMap.get? fields field.emitted = some value → Conforms catalog field.type value) :
      Conforms catalog (.record name) (.record fields)
  | list {element : ResolvedType} {items : List Value}
      (h : ∀ item ∈ items, Conforms catalog element item) :
      Conforms catalog (.list element) (.list items)
  /-- What `?` adds. -/
  | noValue {inner : ResolvedType} : Conforms catalog (.nullable inner) .null
  | nullable {inner : ResolvedType} {value : Value} (h : Conforms catalog inner value) :
      Conforms catalog (.nullable inner) value
  | reference {key : ResolvedType} {target : String} {value : Value}
      (h : Conforms catalog key value) : Conforms catalog (.reference key target) value

/-- The rows of a shape: records with the names of the shape, in their order, and
conforming values. -/
def RowConforms (catalog : Catalog) (shape : Shape) (row : Value) : Prop :=
  ∃ fields, row = .record fields ∧ fields.map Prod.fst = shape.names ∧
    ∀ field ∈ shape.fields, ∀ value,
      OrderedMap.get? fields field.emitted = some value → catalog.Conforms field.type value

variable {catalog : Catalog}

/-! ### Inversion -/

theorem rowConforms_record_iff {shape : Shape} {fields : List (String × Value)} :
    catalog.RowConforms shape (.record fields) ↔
      fields.map Prod.fst = shape.names ∧ ∀ field ∈ shape.fields, ∀ value,
        OrderedMap.get? fields field.emitted = some value →
          catalog.Conforms field.type value := by
  constructor
  · rintro ⟨_, heq, h⟩
    cases heq
    exact h
  · intro h
    exact ⟨fields, rfl, h⟩

theorem RowConforms.exists_fields {shape : Shape} {row : Value}
    (h : catalog.RowConforms shape row) : ∃ fields, row = .record fields := by
  obtain ⟨fields, rfl, -⟩ := h
  exact ⟨fields, rfl⟩

theorem Conforms.list_cases {element : ResolvedType} {value : Value}
    (h : catalog.Conforms (.list element) value) :
    ∃ items, value = .list items ∧ ∀ item ∈ items, catalog.Conforms element item := by
  cases h with
  | list h => exact ⟨_, rfl, h⟩

theorem Conforms.record_cases {name : String} {value : Value}
    (h : catalog.Conforms (.record name) value) :
    value = .null ∨
      ∃ shape, catalog.record? name = some shape ∧ catalog.RowConforms shape value := by
  cases h with
  | noRecord => exact Or.inl rfl
  | record found names values => exact Or.inr ⟨_, found, _, rfl, names, values⟩

theorem RowConforms.conforms {name : String} {shape : Shape} {value : Value}
    (h : catalog.RowConforms shape value) (found : catalog.record? name = some shape) :
    catalog.Conforms (.record name) value := by
  obtain ⟨fields, rfl, names, values⟩ := h
  exact .record found names values

/-! ### Types without `?` and references -/

/-- What conforms to a type without its `?` and references conforms to it. -/
theorem Conforms.of_bare {value : Value} : ∀ {type : ResolvedType},
    catalog.Conforms type.bare value → catalog.Conforms type value := by
  intro type
  induction type with
  | scalar _ => exact id
  | enum _ => exact id
  | record _ => exact id
  | list _ _ => exact id
  | nullable inner ih => intro h; exact .nullable (ih h)
  | reference key _ ih => intro h; exact .reference (ih h)

/-- **A value that is there conforms to the type without its `?` and references.** -/
theorem Conforms.bare_of_ne_null {type : ResolvedType} {value : Value}
    (h : catalog.Conforms type value) (hne : value ≠ .null) :
    catalog.Conforms type.bare value := by
  induction type with
  | scalar _ => exact h
  | enum _ => exact h
  | record _ => exact h
  | list _ _ => exact h
  | nullable inner ih =>
    cases h with
    | noValue => exact absurd rfl hne
    | nullable h => exact ih h
  | reference key _ ih =>
    cases h with
    | reference h => exact ih h

theorem Conforms.of_stored {value : Value} : ∀ {type : ResolvedType},
    catalog.Conforms type.stored value → catalog.Conforms type value := by
  intro type
  induction type with
  | scalar _ => exact id
  | enum _ => exact id
  | record _ => exact id
  | list _ _ => exact id
  | nullable _ _ => exact id
  | reference key _ ih => intro h; exact .reference (ih h)

/-! ### Inversion by the value -/

/-- **A value that is there belongs to one kind of type**, once `?` and references are
taken off. -/
theorem Conforms.cases_of_ne_null {type : ResolvedType} {value : Value}
    (h : catalog.Conforms type value) (hne : value ≠ .null) :
    (∃ s, type.bare = .scalar s ∧ s.Admits value) ∨
    (∃ name, type.bare = .enum name ∧ catalog.EnumAdmits name value) ∨
    (∃ name shape, type.bare = .record name ∧ catalog.record? name = some shape ∧
      catalog.RowConforms shape value) ∨
    ∃ element items, type.bare = .list element ∧ value = .list items ∧
      ∀ item ∈ items, catalog.Conforms element item := by
  induction type with
  | scalar s =>
    cases h with
    | scalar h => exact Or.inl ⟨s, rfl, h⟩
  | enum name =>
    cases h with
    | enum h => exact Or.inr (Or.inl ⟨name, rfl, h⟩)
  | record name =>
    rcases h.record_cases with rfl | ⟨shape, hshape, hrow⟩
    · exact absurd rfl hne
    · exact Or.inr (Or.inr (Or.inl ⟨name, shape, rfl, hshape, hrow⟩))
  | list element _ =>
    obtain ⟨items, hvalue, hitems⟩ := h.list_cases
    exact Or.inr (Or.inr (Or.inr ⟨element, items, rfl, hvalue, hitems⟩))
  -- what `?` adds is no value, and a reference adds nothing
  | nullable inner ih =>
    cases h with
    | noValue => exact absurd rfl hne
    | nullable h => exact ih h
  | reference key _ ih =>
    cases h with
    | reference h => exact ih h

theorem Conforms.exists_element {type : ResolvedType} {items : List Value}
    (h : catalog.Conforms type (.list items)) :
    ∃ element, type.bare = .list element ∧ ∀ item ∈ items, catalog.Conforms element item := by
  rcases h.cases_of_ne_null (by simp) with
    ⟨_, -, h⟩ | ⟨_, -, h⟩ | ⟨_, _, -, -, _, h, -⟩ | ⟨element, _, htype, h, hitems⟩
  · exact h.elim
  · exact h.elim
  · cases h
  · cases h
    exact ⟨element, htype, hitems⟩

theorem Conforms.exists_shape {type : ResolvedType} {fields : List (String × Value)}
    (h : catalog.Conforms type (.record fields)) :
    ∃ name shape, type.bare = .record name ∧ catalog.record? name = some shape ∧
      catalog.RowConforms shape (.record fields) := by
  rcases h.cases_of_ne_null (by simp) with
    ⟨_, -, h⟩ | ⟨_, -, h⟩ | hrow | ⟨_, _, -, h, -⟩
  · exact h.elim
  · exact h.elim
  · exact hrow
  · cases h

/-- No slot may hold both a text and a member of an enumeration. -/
theorem Conforms.not_enum_of_str {type : ResolvedType} {text name : String}
    (hstr : catalog.Conforms type (.str text)) : ¬ catalog.Conforms type (.enum name) := by
  intro henum
  rcases henum.cases_of_ne_null (by simp) with
    ⟨_, -, h⟩ | ⟨_, htype, -⟩ | ⟨_, _, -, -, _, h, -⟩ | ⟨_, _, -, h, -⟩
  · exact h
  · have hbare := hstr.bare_of_ne_null (by simp)
    rw [htype] at hbare
    cases hbare with
    | enum h => exact h
  · cases h
  · cases h

/-- A number that a slot may hold as an integer of either kind is zero, and the slot is of
the widest unsigned type. -/
theorem Conforms.eq_zero_of_int_of_uint {type : ResolvedType} {n : Nat}
    (hint : catalog.Conforms type (.int n)) (huint : catalog.Conforms type (.uint n)) :
    type.bare = .scalar .ulong ∧ n = 0 := by
  have hbare := hint.bare_of_ne_null (by simp)
  rcases huint.cases_of_ne_null (by simp) with
    ⟨s, htype, huint⟩ | ⟨name, htype, huint⟩ | ⟨_, _, -, -, _, h, -⟩ | ⟨_, _, -, h, -⟩
  · rw [htype] at hbare ⊢
    cases hbare with
    | scalar hint =>
      obtain ⟨-, -, hle⟩ := hint
      rcases huint.2 with ⟨rfl, hzero⟩ | hgt
      · exact ⟨rfl, hzero⟩
      · omega
  · -- an enumeration holds a number as unsigned only where the signed kind ends
    rw [htype] at hbare
    cases hbare with
    | enum hint =>
      obtain ⟨-, -, hle⟩ := hint
      obtain ⟨-, hgt⟩ := huint
      omega
  · cases h
  · cases h

/-! ### Values nothing was written to -/

theorem enumZero_admits (catalog : Catalog) (name : String) :
    catalog.EnumAdmits name (catalog.enumZero name) := by
  rw [enumZero]
  cases henum : catalog.enum? name with
  | none =>
    refine ⟨⟨Or.inl rfl, ?_⟩, by decide⟩
    intro block hblock
    rw [henum] at hblock
    exact absurd hblock (by simp)
  | some block =>
    simp only [Option.bind_some]
    cases hfind : block.members.find? fun m => m.value = 0 with
    -- a member of number zero is its own value; without one, zero is a number that no member has
    | some member =>
      exact ⟨block, henum, member, List.mem_of_find?_eq_some hfind, rfl⟩
    | none =>
      refine ⟨⟨Or.inl rfl, ?_⟩, by decide⟩
      intro block' hblock' member hmember hzero
      obtain rfl : block = block' := Option.some.inj (henum.symm.trans hblock')
      simpa [hzero] using List.find?_eq_none.mp hfind member hmember

theorem blank_conforms (catalog : Catalog) (type : ResolvedType) :
    catalog.Conforms type (catalog.blank type) := by
  induction type with
  | scalar s => exact .scalar s.admits_zero
  | enum name => exact .enum (catalog.enumZero_admits name)
  | record name => exact .noRecord
  | list element _ => exact .list (by simp)
  | nullable inner _ => exact .noValue
  | reference key target ih => exact .reference ih

/-- A record made field by field conforms when each part of it does. -/
theorem rowConforms_ofList {shape : Shape} (hnames : shape.names.Nodup)
    (value : ResolvedType → Value) (h : ∀ type, catalog.Conforms type (value type)) :
    catalog.RowConforms shape (.record (OrderedMap.ofList
      (shape.fields.map fun field => (field.emitted, value field.type)))) := by
  refine ⟨_, rfl, ?_, ?_⟩
  · rw [Shape.ofList_fields hnames, List.map_map]
    rfl
  · intro field hfield v hv
    rw [Shape.get?_ofList hnames value hfield] at hv
    cases hv
    exact h field.type

/-- **The zero of a type conforms to it.** -/
theorem zero_conforms (hdistinct : catalog.DistinctNames) (type : ResolvedType) :
    catalog.Conforms type (catalog.zero type) := by
  induction type with
  | record name =>
    rw [zero]
    cases hshape : catalog.record? name with
    | none => exact .noRecord
    | some shape =>
      exact (rowConforms_ofList (hdistinct.of_record hshape) _
        catalog.blank_conforms).conforms hshape
  | reference key target ih => exact .reference ih
  | scalar s => exact catalog.blank_conforms _
  | enum name => exact catalog.blank_conforms _
  | list element _ => exact catalog.blank_conforms _
  | nullable inner _ => exact catalog.blank_conforms _

theorem rowField_conforms (hdistinct : catalog.DistinctNames) (type : ResolvedType) :
    catalog.Conforms type (catalog.rowField type) := by
  cases type with
  | record name => exact .noRecord
  | _ => exact zero_conforms hdistinct _

/-- **A row before any cell is written to it conforms.** -/
theorem newRow_conforms (hdistinct : catalog.DistinctNames) {shape : Shape}
    (hnames : shape.names.Nodup) : catalog.RowConforms shape (catalog.newRow shape) :=
  rowConforms_ofList hnames _ (rowField_conforms hdistinct)

/-- **What a list is filled up with conforms to the type of its items.** -/
theorem filler_conforms (hdistinct : catalog.DistinctNames) (element : ResolvedType) :
    catalog.Conforms element (catalog.filler element) := by
  apply Conforms.of_stored
  rw [filler]
  split
  · next hstored => rw [hstored]; exact .scalar rfl
  · exact zero_conforms hdistinct _

/-! ### Writing to a field -/

/-- A field of a row holds something. -/
theorem RowConforms.exists_get? {shape : Shape} {fields : List (String × Value)}
    (h : catalog.RowConforms shape (.record fields)) {field : Field}
    (hfield : field ∈ shape.fields) :
    ∃ value, OrderedMap.get? fields field.emitted = some value ∧
      catalog.Conforms field.type value := by
  obtain ⟨hnames, hvalues⟩ := rowConforms_record_iff.mp h
  have hmem : field.emitted ∈ fields.map Prod.fst := hnames ▸ Shape.emitted_mem_names hfield
  obtain ⟨value, hvalue⟩ := OrderedMap.exists_get?_of_mem hmem
  exact ⟨value, hvalue, hvalues field hfield value hvalue⟩

/-- **Writing a conforming value to a field keeps a row conforming.** -/
theorem RowConforms.insert {shape : Shape} {fields : List (String × Value)}
    (h : catalog.RowConforms shape (.record fields)) (hnames : shape.names.Nodup)
    {field : Field} (hfield : field ∈ shape.fields) {value : Value}
    (hvalue : catalog.Conforms field.type value) :
    catalog.RowConforms shape (.record (OrderedMap.insert fields field.emitted value)) := by
  obtain ⟨hkeys, hvalues⟩ := rowConforms_record_iff.mp h
  have hmem : field.emitted ∈ fields.map Prod.fst := hkeys ▸ Shape.emitted_mem_names hfield
  refine rowConforms_record_iff.mpr ⟨?_, ?_⟩
  · rw [OrderedMap.names_insert_of_mem value hmem, hkeys]
  · intro other hother v hv
    by_cases heq : field.emitted = other.emitted
    · -- names are distinct, so this is the field that was written to
      obtain rfl := Shape.eq_of_emitted_eq hnames hfield hother heq
      rw [OrderedMap.get?_insert_self] at hv
      cases hv
      exact hvalue
    · rw [OrderedMap.get?_insert_of_ne _ _ heq] at hv
      exact hvalues other hother v hv

end Catalog
end TypedSheets

import Mathlib.Data.List.Basic
import TypedSheets.Document
import TypedSheets.Proofs.Conformance

/-!
# How values are written

A record is written field by field, and what is written for a field depends on what the
record holds there and on nothing else.  Hence two records of one shape are written as
the same object exactly when they are written alike field by field.

## Main definitions

* `Value.slot` — what a record holds under a name.
* `Field.written?` — what is written for a field, if anything.
* `Value.isLeaf`, `Json.isLeaf` — values and trees without parts.
* `ResolvedType.mayBeNull` — where `null` may stand.

## Main results

* `Shape.get?_members` — what stands in an object under the name of a field.
* `Shape.members_eq_iff` — **when two records are written as the same object.**
* `Catalog.Conforms.induction_bare` — induction over a conforming value.
-/

namespace TypedSheets

variable {catalog : Catalog}

/-! ### Records -/

/-- What a record holds under a name; nothing if it has no such field. -/
def Value.slot (value : Value) (name : String) : Value := (value.get? name).getD .null

theorem Value.slot_record {fields : List (String × Value)} {name : String} {value : Value}
    (h : OrderedMap.get? fields name = some value) : (Value.record fields).slot name = value := by
  rw [slot, get?, fields?, Option.bind_some, h, Option.getD_some]

theorem Value.slot_insert_of_ne (fields : List (String × Value)) {name other : String}
    (value : Value) (h : name ≠ other) :
    (Value.record (OrderedMap.insert fields name value)).slot other
      = (Value.record fields).slot other := by
  simp only [slot, get?, fields?, Option.bind_some, OrderedMap.get?_insert_of_ne fields value h]

theorem Catalog.RowConforms.conforms_slot {shape : Shape} {row : Value}
    (h : catalog.RowConforms shape row) {field : Field} (hfield : field ∈ shape.fields) :
    catalog.Conforms field.type (row.slot field.emitted) := by
  obtain ⟨fields, rfl, hrest⟩ := h
  obtain ⟨value, hget, hconforms⟩ := (rowConforms_record_iff.mpr hrest).exists_get? hfield
  rw [Value.slot_record hget]
  exact hconforms

/-- What is written for a field that holds a value, if anything. -/
def Field.written? (catalog : Catalog) (field : Field) (value : Value) : Option Json :=
  if field.optional && value.isNull then none else some (value.typed catalog field.type)

theorem Value.get?_writers (catalog : Catalog) (fields : List (String × Value)) (name : String) :
    OrderedMap.get? (writers catalog fields) name
      = (OrderedMap.get? fields name).map fun value => ⟨value.isNull, typed catalog value⟩ := by
  induction fields with
  | nil => rfl
  | cons entry fields ih =>
    obtain ⟨key, value⟩ := entry
    by_cases h : key = name
    · simp [writers, OrderedMap.get?, h]
    · simp [writers, OrderedMap.get?, h, ih]

theorem Shape.members_writers (catalog : Catalog) (shape : Shape)
    (fields : List (String × Value)) :
    shape.members (Value.writers catalog fields)
      = shape.fields.filterMap fun field =>
          (field.written? catalog ((Value.record fields).slot field.emitted)).map
            fun json => (field.emitted, json) := by
  rw [members]
  refine List.filterMap_congr ?_
  intro field _
  rw [Value.get?_writers, Field.written?, Value.slot, Value.get?, Value.fields?, Option.bind_some]
  cases OrderedMap.get? fields field.emitted with
  | none => cases field.optional <;> rfl
  | some value => by_cases h : (field.optional && value.isNull) = true <;> simp [h]

/-- What stands in an object under the name of a field is what is written for that
field. -/
theorem Shape.get?_members {shape : Shape} (hnames : shape.names.Nodup) {field : Field}
    (hfield : field ∈ shape.fields) (fields : List (String × Value)) :
    OrderedMap.get? (shape.members (Value.writers catalog fields)) field.emitted
      = field.written? catalog ((Value.record fields).slot field.emitted) := by
  rw [members_writers]
  exact OrderedMap.get?_filterMap_of_nodup
    (fun f : Field => f.written? catalog ((Value.record fields).slot f.emitted)) hnames hfield

theorem Shape.get?_members_of_not_mem {shape : Shape} {name : String} (h : name ∉ shape.names)
    (fields : List (String × Value)) :
    OrderedMap.get? (shape.members (Value.writers catalog fields)) name = none := by
  rw [members_writers]
  exact OrderedMap.get?_filterMap_of_not_mem _ h

/-- A field is written the same way for two values when they are written the same way
through its type and, if it may be left out, is left out for both or for none. -/
theorem Field.written?_eq_iff {field : Field} {a b : Value} :
    field.written? catalog a = field.written? catalog b ↔
      (field.optional = true → a.isNull = b.isNull) ∧
        a.typed catalog field.type = b.typed catalog field.type := by
  rw [written?, written?]
  cases hoptional : field.optional with
  | false => simp
  | true =>
    cases a with
    | null => cases b <;> simp [Value.isNull]
    | _ => cases b <;> simp [Value.isNull]

/-- **Two records are written as the same object exactly when each field of the shape is
written the same way for both.** -/
theorem Shape.members_eq_iff {shape : Shape} (hnames : shape.names.Nodup)
    {as bs : List (String × Value)} :
    shape.members (Value.writers catalog as) = shape.members (Value.writers catalog bs) ↔
      ∀ field ∈ shape.fields,
        field.written? catalog ((Value.record as).slot field.emitted)
          = field.written? catalog ((Value.record bs).slot field.emitted) := by
  constructor
  · intro h field hfield
    rw [← get?_members hnames hfield, ← get?_members hnames hfield, h]
  · intro h
    rw [members_writers, members_writers]
    refine List.filterMap_congr ?_
    intro field hfield
    rw [h field hfield]

/-! ### Through a type -/

theorem Value.typed_list {type element : ResolvedType} (h : type.bare = .list element)
    (items : List Value) :
    (Value.list items).typed catalog type = .arr (typedList catalog items element) := by
  simp only [typed, h]

theorem Value.typed_record {type : ResolvedType} {name : String} {shape : Shape}
    (h : type.bare = .record name) (found : catalog.record? name = some shape)
    (fields : List (String × Value)) :
    (Value.record fields).typed catalog type = .obj (shape.members (writers catalog fields)) := by
  simp only [typed, h, found]

theorem Value.typedList_eq_map (items : List Value) (element : ResolvedType) :
    typedList catalog items element = items.map fun item => item.typed catalog element := by
  induction items with
  | nil => rfl
  | cons item items ih => rw [typedList, ih, List.map_cons]

/-- A value without parts that is there. -/
def Value.isLeaf : Value → Bool
  | .null | .list _ | .record _ => false
  | _ => true

/-- A tree without parts that is not `null`. -/
def Json.isLeaf : Json → Bool
  | .null | .arr _ | .obj _ => false
  | _ => true

/-- Leaves are written as leaves, and nothing else is. -/
theorem Value.isLeaf_typed (catalog : Catalog) (value : Value) (type : ResolvedType) :
    (value.typed catalog type).isLeaf = value.isLeaf := by
  cases value with
  | null =>
    rw [typed, typedNull]
    split <;> rfl
  | list items =>
    rw [typed]
    split <;> rfl
  | record fields =>
    rw [typed]
    split
    · split <;> rfl
    · rfl
  | _ => rfl

/-- Only a list, or the absence of one, is written as an array. -/
theorem Value.eq_null_or_list_of_typed {value : Value} {type : ResolvedType} {items : List Json}
    (h : value.typed catalog type = .arr items) : value = .null ∨ ∃ parts, value = .list parts := by
  cases value with
  | null => exact Or.inl rfl
  | list parts => exact Or.inr ⟨parts, rfl⟩
  | record fields =>
    rw [typed] at h
    split at h
    · split at h <;> cases h
    · cases h
  | _ => cases h

/-- Only a record is written as an object. -/
theorem Value.exists_record_of_typed {value : Value} {type : ResolvedType}
    {members : List (String × Json)} (h : value.typed catalog type = .obj members) :
    ∃ fields, value = .record fields := by
  cases value with
  | null =>
    rw [typed, typedNull] at h
    split at h <;> cases h
  | list parts =>
    rw [typed] at h
    split at h <;> cases h
  | record fields => exact ⟨fields, rfl⟩
  | _ => cases h

/-! ### Leaves and absent values -/

/-- Where `null` may stand: a slot that is nullable and no list, a record or a text. -/
def ResolvedType.mayBeNull (type : ResolvedType) : Bool :=
  !type.bare.isList && match type.stored with
    | .nullable _ | .record _ | .scalar .string => true
    | _ => false

namespace Catalog

theorem Conforms.mayBeNull {type : ResolvedType} (h : catalog.Conforms type .null)
    (hlist : type.bare.isList = false) : type.mayBeNull = true := by
  -- a reference is stored as its key, so the question is passed on to the key
  have hstored : (match type.stored with
      | .nullable _ | .record _ | .scalar .string => true
      | _ => false) = true := by
    induction type with
    | scalar s =>
      cases h with
      | scalar hnull =>
        cases hnull
        rfl
    | enum name =>
      cases h with
      | enum hnone => exact hnone.elim
    | record name => rfl
    | list element _ => cases hlist
    | nullable inner _ => rfl
    | reference key _ ih =>
      cases h with
      | reference h => exact ih h hlist
  rw [ResolvedType.mayBeNull, hlist, hstored]
  rfl

theorem isLeaf_of_admits {s : Scalar} {value : Value} (h : s.Admits value) (hne : value ≠ .null) :
    value.isLeaf = true := by
  cases value with
  | null => exact absurd rfl hne
  | list items => exact h.elim
  | record fields => exact h.elim
  | _ => rfl

theorem isLeaf_of_enumAdmits {name : String} {value : Value} (h : catalog.EnumAdmits name value) :
    value.isLeaf = true := by
  cases value with
  | null => exact h.elim
  | list items => exact h.elim
  | record fields => exact h.elim
  | _ => rfl

theorem typed_of_isLeaf {value : Value} (h : value.isLeaf = true) (type : ResolvedType) :
    value.typed catalog type = value.plain := by
  cases value with
  | null => cases h
  | list items => cases h
  | record fields => cases h
  | _ => rfl

/-- **Induction over a conforming value.**  What is there has a case for each kind of type,
once `?` and references are taken off; these count for what is absent only. -/
theorem Conforms.induction_bare {motive : ResolvedType → Value → Prop}
    (null : ∀ {type}, catalog.Conforms type .null → motive type .null)
    (scalar : ∀ {type s value}, type.bare = .scalar s → s.Admits value → value ≠ .null →
      motive type value)
    (enum : ∀ {type name value}, type.bare = .enum name → catalog.EnumAdmits name value →
      motive type value)
    (list : ∀ {type element items}, type.bare = .list element →
      (∀ item ∈ items, motive element item) → motive type (.list items))
    (record : ∀ {type name shape fields}, type.bare = .record name →
      catalog.record? name = some shape →
      (∀ field ∈ shape.fields, motive field.type ((Value.record fields).slot field.emitted)) →
      motive type (.record fields))
    {type : ResolvedType} {value : Value} (h : catalog.Conforms type value) :
    motive type value := by
  -- a value that is there has the motive at every type that is the same without `?`
  have hthere : value ≠ .null → ∀ other : ResolvedType, other.bare = type.bare →
      motive other value := by
    induction h with
    | scalar hvalue =>
      intro hne other hother
      exact scalar hother hvalue hne
    | enum hvalue =>
      intro _ other hother
      exact enum hother hvalue
    | noRecord => intro hne; exact absurd rfl hne
    | record found names values ih =>
      intro _ other hother
      refine record hother found ?_
      intro field hfield
      obtain ⟨held, hget, hheld⟩ :=
        (rowConforms_record_iff.mpr ⟨names, values⟩).exists_get? hfield
      rw [Value.slot_record hget]
      by_cases hnull : held = .null
      · rw [hnull] at hheld ⊢
        exact null hheld
      · exact ih field hfield held hget hnull field.type rfl
    | list hitems ih =>
      intro _ other hother
      refine list hother ?_
      intro item hmem
      by_cases hnull : item = .null
      · have hheld := hitems item hmem
        rw [hnull] at hheld ⊢
        exact null hheld
      · exact ih item hmem hnull _ rfl
    | noValue => intro hne; exact absurd rfl hne
    | nullable _ ih => exact ih
    | reference _ ih => exact ih
  by_cases hnull : value = .null
  · rw [hnull] at h ⊢
    exact null h
  · exact hthere hnull type rfl

end Catalog
end TypedSheets

import TypedSheets.Proofs.ClosedCatalog
import TypedSheets.Proofs.Document
import TypedSheets.Proofs.Literals
import TypedSheets.Proofs.Numerals
import TypedSheets.Proofs.SchemaReading

/-!
# Documents are read back

What is written for a value of a type is read against that type, and what is read is written
the same way.  It need not be the same value: the absence of a list is written as an empty
array, which is an empty list, and the zero of the widest unsigned type is read as a signed
one.  Written trees are fixed points all the same.

Names have to tell fields and members apart.  A reader takes a declared name as well as a
generated one, so a field is found under its generated name only if no other field has that
name in either way; and the name of a member must not be a number, since numbers stand for
members too.

## Main definitions

* `NamesApart` — that generated names are unlike all other names.
* `Catalog.Unambiguous` — that the names of a catalog tell its fields and members apart.
* `Catalog.WellRead` — what a catalog of sheets that were read has.
* `Catalog.ReadsBack` — that what is written for a value is read, and written again.

## Main results

* `Catalog.wellRead_of_ofSchemas` — what the readers check holds of the catalog.
* `Catalog.readsBack_of_conforms` — conforming values are read back, by induction over them.
* `Catalog.ofJson_typed` — **written trees are fixed points of reading and writing.**
-/

namespace TypedSheets

/-! ### Names and numbers -/

namespace Text

/-- That a text is no integer and has no blanks at its ends, as is every identifier. -/
def IsName (text : String) : Prop := trim text = text ∧ integer? text.toList = none

instance (text : String) : Decidable (IsName text) := inferInstanceAs (Decidable (_ ∧ _))

theorem IsName.ne_toString {text : String} (h : IsName text) (n : Int) : text ≠ toString n := by
  rintro rfl
  rw [IsName, integer?_toString] at h
  cases h.2

end Text

/-! ### Names that tell things apart -/

/-- That generated names are unlike all other names: unlike other generated names, and unlike
what others are declared as. -/
def NamesApart {α : Type} (name emitted : α → String) (things : List α) : Prop :=
  things.Pairwise fun a b => emitted a ≠ emitted b ∧ emitted a ≠ name b ∧ emitted b ≠ name a

instance {α : Type} (name emitted : α → String) (things : List α) :
    Decidable (NamesApart name emitted things) :=
  inferInstanceAs (Decidable (List.Pairwise _ _))

section NamesApart

variable {α : Type} {name emitted : α → String} {things : List α}

theorem NamesApart.nodup (h : NamesApart name emitted things) : (things.map emitted).Nodup :=
  List.pairwise_map.mpr (h.imp fun hapart => hapart.1)

/-- **A thing is the first that its generated name stands for.** -/
theorem NamesApart.find?_emitted (h : NamesApart name emitted things) {thing : α}
    (hmem : thing ∈ things) :
    things.find? (fun other => name other = emitted thing || emitted other = emitted thing)
      = some thing := by
  induction things with
  | nil => cases hmem
  | cons first rest ih =>
    obtain ⟨hfirst, hrest⟩ := List.pairwise_cons.mp h
    rcases List.mem_cons.mp hmem with rfl | hmem
    · exact List.find?_cons_of_pos (by simp)
    · obtain ⟨hemitted, -, hname⟩ := hfirst thing hmem
      rw [List.find?_cons_of_neg (by simp [hemitted, hname.symm])]
      exact ih hrest hmem

end NamesApart

namespace Catalog

/-- That the names of a catalog tell its fields and members apart. -/
structure Unambiguous (catalog : Catalog) : Prop where
  fields : ∀ entry ∈ catalog.records, NamesApart Field.name Field.emitted entry.2.fields
  members : ∀ entry ∈ catalog.enums,
    NamesApart Member.name (fun member => catalog.naming.enumMember member.name) entry.2.members
  /-- The names of members are no numbers, as declared and as generated. -/
  words : ∀ entry ∈ catalog.enums, ∀ member ∈ entry.2.members,
    Text.IsName member.name ∧ Text.IsName (catalog.naming.enumMember member.name)

/-! ### Catalogs of sheets that were read -/

/-- What a catalog of sheets that were read has: it knows what its types name, an optional
field is nullable, and an enumeration has an integer type. -/
structure WellRead (catalog : Catalog) : Prop where
  knows : ∀ shape ∈ catalog.shapes, ∀ field ∈ shape.fields, catalog.Knows field.type
  nullable : ∀ entry ∈ catalog.records, ∀ field ∈ entry.2.fields,
    field.optional = true → field.type.isNullable = true
  integer : ∀ entry ∈ catalog.enums, entry.2.backing.isInteger = true

theorem isNullable_of_resolve {scope : Scope} {cell : Cell} {type : WrittenType}
    {resolved : ResolvedType} (h : scope.resolve cell type = .ok resolved)
    (htype : type.isNullable = true) : resolved.isNullable = true := by
  cases type with
  | nullable inner =>
    obtain ⟨_, -, rfl⟩ := map_eq_ok.mp h
    rfl
  | _ => cases htype

/-- **What the readers of sheets check holds of a catalog.** -/
theorem wellRead_of_ofSchemas {schema : Schema} {others : List Schema} {naming : NameStyle}
    {catalog : Catalog} (h : ofSchemas schema others naming = .ok catalog)
    (hread : ∀ home ∈ schema :: others, home.IsRead) : catalog.WellRead := by
  obtain ⟨-, scope, hmade⟩ := madeIn_of_ofSchemas h
  refine ⟨fun shape hshape field hfield => hmade.closed.knows hshape hfield, ?_, ?_⟩
  · intro entry hentry field hfield hoptional
    -- the readers let a field be optional only if its type has a `?`
    obtain ⟨record, hrecord, hshape⟩ := hmade.resolving.shapes entry hentry
    obtain ⟨decl, hdecl, hfield⟩ :=
      exists_left_of_forall₂ (recordShape_eq_ok_iff.mp hshape) hfield
    have hchecked :=
      Schema.checked_of_sees? hread ((Scope.record?_eq_some_iff hmade.inScope).mp hrecord)
    exact isNullable_of_resolve hfield.type
      (hchecked decl hdecl (hfield.optional.symm.trans hoptional))
  · intro entry hentry
    rw [hmade.enums] at hentry
    obtain ⟨⟨name, declaration⟩, hdeclared, heq⟩ := List.mem_filterMap.mp hentry
    obtain ⟨block, hblock, rfl⟩ := Option.map_eq_some_iff.mp heq
    have hchecked := Schema.checked_of_sees? hread
      ((Scope.mem_declared_iff hmade.inScope).mp hdeclared)
    cases declaration with
    | enum found =>
      cases hblock
      exact hchecked
    | record found => cases hblock

end Catalog

/-! ### Leaves -/

theorem Value.isLeaf_plain (value : Value) : value.plain.isLeaf = value.isLeaf := by
  cases value <;> rfl

/-- Both kinds of integers are written with digits only. -/
theorem Value.plain_ofInteger {n : Int} (hmin : Value.minInt ≤ n) (hmax : n ≤ Value.maxUInt) :
    (Value.ofInteger n).plain = .int n := by
  rcases Value.ofInteger_cases hmin hmax with ⟨heq, -⟩ | ⟨k, heq, rfl, -⟩
  · rw [heq, plain]
  · rw [heq, plain]

theorem Scalar.ofJson?_int {s : Scalar} {n : Int} (h : s.holds n = true) :
    ∃ back, s.ofJson? (.int n) = some back ∧ back.plain = .int n := by
  obtain ⟨hmin, hmax⟩ := Scalar.range_of_holds h
  exact ⟨.ofInteger n, by rw [ofJson?, if_pos h], Value.plain_ofInteger hmin hmax⟩

/-- **A scalar is read back.** -/
theorem Scalar.ofJson?_plain {s : Scalar} {value : Value} (h : s.Admits value)
    (hne : value ≠ .null) :
    ∃ back, s.ofJson? value.plain = some back ∧ back.plain = value.plain := by
  cases value with
  | null => exact absurd rfl hne
  | bool b =>
    obtain rfl : s = .bool := h
    exact ⟨.bool b, rfl, rfl⟩
  | int n => exact Scalar.ofJson?_int h.1
  | uint n => exact Scalar.ofJson?_int h.1
  | float x =>
    obtain ⟨hfinite, rfl | rfl | ⟨rfl, hsingle⟩⟩ := h
    · exact ⟨.float x, by simp [Value.plain, ofJson?, ofDouble?, hfinite], rfl⟩
    · exact ⟨.float x, by simp [Value.plain, ofJson?, ofDouble?, hfinite], rfl⟩
    · exact ⟨.float x, by simp [Value.plain, ofJson?, ofDouble?, hfinite, hsingle], rfl⟩
  | str text =>
    -- any text is a string; one character that is no blank is also a `char`
    obtain rfl | ⟨rfl, hlength, hblank⟩ := h
    · exact ⟨.str text, rfl, rfl⟩
    · obtain ⟨c, hc⟩ := List.length_eq_one_iff.mp hlength
      refine ⟨.str text, ?_, rfl⟩
      simp only [Value.plain, ofJson?, value?, Text.trimChars_eq_self hblank]
      rw [hc]
      simp only [← hc, String.ofList_toList]
  | enum name => exact h.elim
  | list items => exact h.elim
  | record fields => exact h.elim

theorem Scalar.holds_zero {s : Scalar} (h : s.isInteger = true) : s.holds 0 = true := by
  cases s <;> first | rfl | cases h

namespace Catalog

variable {catalog : Catalog}

theorem ofEnumText?_emitted (hnames : catalog.Unambiguous) {name : String} {block : EnumDecl}
    (hblock : catalog.enum? name = some block) {member : Member}
    (hmember : member ∈ block.members) :
    catalog.ofEnumText? name (catalog.naming.enumMember member.name)
      = some (catalog.memberValue member) := by
  have hentry := OrderedMap.mem_of_get? hblock
  have hfind := (hnames.members _ hentry).find?_emitted hmember
  rw [ofEnumText?, hblock]
  simp only [Option.bind_eq_bind, Option.bind_some, (hnames.words _ hentry member hmember).2.1,
    hfind]
  rfl

theorem ofEnumText?_toString (hnames : catalog.Unambiguous) (hwell : catalog.WellRead)
    {name : String} {block : EnumDecl} (hblock : catalog.enum? name = some block) {n : Int}
    (h : catalog.HoldsNumber name n) :
    ∃ back, catalog.ofEnumText? name (toString n) = some back ∧ back.plain = .int n := by
  have hentry := OrderedMap.mem_of_get? hblock
  -- zero is held where nothing was written, and every integer type has it
  have hholds : block.backing.holds n = true := by
    rcases h.1 with rfl | ⟨block', hblock', hholds⟩
    · exact Scalar.holds_zero (hwell.integer _ hentry)
    · obtain rfl : block = block' := Option.some.inj (hblock.symm.trans hblock')
      exact hholds
  obtain ⟨hmin, hmax⟩ := Scalar.range_of_holds hholds
  have hnamed : block.members.find? (fun member =>
      member.name = toString n || catalog.naming.enumMember member.name = toString n) = none := by
    rw [List.find?_eq_none]
    intro member hmember
    obtain ⟨hdeclared, hemitted⟩ := hnames.words _ hentry member hmember
    simp only [Bool.or_eq_true, decide_eq_true_eq, not_or]
    exact ⟨hdeclared.ne_toString n, hemitted.ne_toString n⟩
  have hnumber : block.members.find? (fun member => member.value = n) = none := by
    rw [List.find?_eq_none]
    intro member hmember
    simpa using h.2 block hblock member hmember
  refine ⟨.ofInteger n, ?_, Value.plain_ofInteger hmin hmax⟩
  rw [ofEnumText?, hblock]
  simp only [Option.bind_eq_bind, Option.bind_some, Text.trim_toString, hnamed,
    Text.wideInteger?_toString hmin hmax, numberValue?, hholds, hnumber, if_true]

/-- **A value of an enumeration is read back.** -/
theorem ofLeaf_enum_plain (hnames : catalog.Unambiguous) (hwell : catalog.WellRead)
    {name : String} (hknown : ∃ block, catalog.enum? name = some block) {value : Value}
    (h : catalog.EnumAdmits name value) :
    ∃ back, catalog.ofLeaf (.enum name) value.plain = .ok back ∧ back.plain = value.plain := by
  -- a number goes through its text, whether it was signed or not
  have hnumber : ∀ n : Int, catalog.HoldsNumber name n →
      ∃ back, catalog.ofLeaf (.enum name) (.int n) = .ok back ∧ back.plain = .int n := by
    intro n hn
    obtain ⟨block, hblock⟩ := hknown
    obtain ⟨back, hback, hplain⟩ := ofEnumText?_toString hnames hwell hblock hn
    exact ⟨back, by simp only [ofLeaf, hback], hplain⟩
  cases value with
  | enum text =>
    obtain ⟨block, hblock, member, hmember, rfl⟩ := h
    refine ⟨catalog.memberValue member, ?_, rfl⟩
    simp only [Value.plain, ofLeaf, ofEnumText?_emitted hnames hblock hmember]
  | int n => exact hnumber n h.1
  | uint n => exact hnumber n h.1
  | _ => exact h.elim

/-! ### Reading back -/

/-- That what is written for a value is read against its type, and what is read is written the
same way.  It is absent only if the value is. -/
def ReadsBack (catalog : Catalog) (type : ResolvedType) (value : Value) : Prop :=
  ∃ back, ofJson catalog (value.typed catalog type) type = .ok back ∧
    back.typed catalog type = value.typed catalog type ∧ (back.isNull = true → value.isNull = true)

theorem ofJson_of_isLeaf {json : Json} (h : json.isLeaf = true) (type : ResolvedType) :
    ofJson catalog json type = catalog.ofLeaf type.bare json := by
  cases json with
  | null => cases h
  | arr items => cases h
  | obj members => cases h
  | _ => rw [ofJson]

theorem readsBack_of_isLeaf {type : ResolvedType} {value back : Value}
    (hleaf : value.isLeaf = true) (hback : catalog.ofLeaf type.bare value.plain = .ok back)
    (hplain : back.plain = value.plain) : catalog.ReadsBack type value := by
  have hbackLeaf : back.isLeaf = true := by
    rw [← Value.isLeaf_plain, hplain, Value.isLeaf_plain, hleaf]
  refine ⟨back, ?_, ?_, ?_⟩
  · rw [typed_of_isLeaf hleaf, ofJson_of_isLeaf (by rw [Value.isLeaf_plain, hleaf]), hback]
  · rw [typed_of_isLeaf hbackLeaf, typed_of_isLeaf hleaf, hplain]
  · intro hnull
    cases back with
    | null => cases hbackLeaf
    | _ => cases hnull

theorem ofNull_of_mayBeNull {type : ResolvedType} (h : type.mayBeNull = true) :
    ofNull type = .ok .null := by
  have hstored := (Bool.and_eq_true_iff.mp h).2
  rw [ofNull]
  split at hstored
  · next heq => rw [heq]
  · next heq => rw [heq]
  · next heq => rw [heq]
  · cases hstored

/-- The absence of a list is read as an empty list, any other absence as itself. -/
theorem Conforms.readsBack_null {type : ResolvedType} (h : catalog.Conforms type .null) :
    catalog.ReadsBack type .null := by
  rw [ReadsBack, Value.typed, Value.typedNull]
  split
  · next hlist =>
    cases hbare : type.bare with
    | list element =>
      refine ⟨.list [], ?_, Value.typed_list hbare [], fun hnull => by cases hnull⟩
      simp only [ofJson, hbare, ofItems]
      rfl
    | _ => rw [hbare] at hlist; cases hlist
  · next hlist =>
    have hnull := ofNull_of_mayBeNull (h.mayBeNull (Bool.eq_false_iff.mpr hlist))
    refine ⟨.null, by rw [ofJson, hnull], ?_, id⟩
    rw [Value.typed, Value.typedNull, if_neg hlist]

theorem ofItems_typedList {element : ResolvedType} {items : List Value}
    (h : ∀ item ∈ items, catalog.ReadsBack element item) :
    ∃ backs, ofItems catalog (Value.typedList catalog items element) element = .ok backs ∧
      Value.typedList catalog backs element = Value.typedList catalog items element := by
  induction items with
  | nil => exact ⟨[], by rw [Value.typedList, ofItems], rfl⟩
  | cons item items ih =>
    obtain ⟨hitem, hitems⟩ := List.forall_mem_cons.mp h
    obtain ⟨back, hback, htyped, -⟩ := hitem
    obtain ⟨backs, hbacks, htypeds⟩ := ih hitems
    refine ⟨back :: backs, ?_, ?_⟩
    · rw [Value.typedList, ofItems, hback, hbacks]
      rfl
    · rw [Value.typedList, Value.typedList, htyped, htypeds]

/-- **A list is read back** when its items are. -/
theorem readsBack_list {type element : ResolvedType} (htype : type.bare = .list element)
    {items : List Value} (h : ∀ item ∈ items, catalog.ReadsBack element item) :
    catalog.ReadsBack type (.list items) := by
  obtain ⟨backs, hbacks, htyped⟩ := ofItems_typedList h
  rw [ReadsBack, Value.typed_list htype]
  refine ⟨.list backs, ?_, ?_, fun hnull => by cases hnull⟩
  · simp only [ofJson, htype, hbacks]
    rfl
  · rw [Value.typed_list htype, htyped]

/-! ### Records -/

theorem field?_emitted (hnames : catalog.Unambiguous) {name : String} {shape : Shape}
    (hshape : catalog.record? name = some shape) {field : Field} (hfield : field ∈ shape.fields) :
    catalog.field? shape field.emitted = some field := by
  have hfind := (hnames.fields _ (OrderedMap.mem_of_get? hshape)).find?_emitted hfield
  rw [field?, Shape.field?, hfind]
  rfl

/-- What is read for a field that is not left out is written as the field was. -/
theorem written?_of_readsBack {field : Field} {value back : Value}
    (htyped : back.typed catalog field.type = value.typed catalog field.type)
    (hnull : back.isNull = true → value.isNull = true)
    (hthere : (field.optional && value.isNull) = false) :
    field.written? catalog back = field.written? catalog value := by
  refine Field.written?_eq_iff.mpr ⟨?_, htyped⟩
  intro hoptional
  have hvalue : value.isNull = false := by simpa [hoptional] using hthere
  rw [hvalue]
  exact Bool.eq_false_iff.mpr fun hback => by simp [hnull hback] at hvalue

/-- **The members of an object are read back**, one field after the other.  A field that is
left out keeps what it starts with, which has to be no value. -/
theorem ofMembers_written {shape : Shape} {unknown : Mismatch} {held : Field → Value}
    (hfind : ∀ field ∈ shape.fields, catalog.field? shape field.emitted = some field)
    (hback : ∀ field ∈ shape.fields, catalog.ReadsBack field.type (held field)) :
    ∀ (fields : List Field) {start : List (String × Value)}, fields ⊆ shape.fields →
      (fields.map Field.emitted).Nodup →
      (∀ field ∈ fields, field.optional = true →
        (Value.record start).slot field.emitted = .null) →
      ∃ result,
        ofMembers catalog unknown shape (fields.filterMap fun field =>
          (field.written? catalog (held field)).map fun json => (field.emitted, json)) start
            = .ok result ∧
        (∀ name ∉ fields.map Field.emitted,
          (Value.record result).slot name = (Value.record start).slot name) ∧
        ∀ field ∈ fields, field.written? catalog ((Value.record result).slot field.emitted)
          = field.written? catalog (held field) := by
  intro fields
  induction fields with
  | nil =>
    intro start _ _ _
    exact ⟨start, by rw [List.filterMap_nil, ofMembers], fun _ _ => rfl, by simp⟩
  | cons field rest ih =>
    intro start hsub hnodup hstart
    obtain ⟨hfield, hrest⟩ := List.cons_subset.mp hsub
    obtain ⟨hfresh, hnodup⟩ := List.nodup_cons.mp hnodup
    obtain ⟨hblank, hblanks⟩ := List.forall_mem_cons.mp hstart
    cases homit : field.optional && (held field).isNull with
    | true =>
      -- the field is left out, so it goes on holding what it started with
      have hnone : field.written? catalog (held field) = none := by
        rw [Field.written?, if_pos homit]
      obtain ⟨result, hresult, hkept, hwritten⟩ := ih hrest hnodup hblanks
      refine ⟨result, ?_, ?_, List.forall_mem_cons.mpr ⟨?_, hwritten⟩⟩
      · rw [List.filterMap_cons, hnone]
        exact hresult
      · intro name hname
        exact hkept name fun hmem => hname (List.mem_cons_of_mem _ hmem)
      · have hoptional := (Bool.and_eq_true_iff.mp homit).1
        rw [hkept _ hfresh, hblank hoptional, hnone, Field.written?, hoptional]
        rfl
    | false =>
      -- the field is read, and the fields after it have other names
      obtain ⟨back, hread, htyped, hnull⟩ := hback field hfield
      have hsome : field.written? catalog (held field)
          = some ((held field).typed catalog field.type) := by
        rw [Field.written?, homit]
        rfl
      have hblanks' : ∀ other ∈ rest, other.optional = true →
          (Value.record (OrderedMap.insert start field.emitted back)).slot other.emitted
            = .null := by
        intro other hmem hoptional
        have hne : field.emitted ≠ other.emitted := by
          intro heq
          exact hfresh (heq ▸ List.mem_map_of_mem hmem)
        rw [Value.slot_insert_of_ne _ _ hne]
        exact hblanks other hmem hoptional
      obtain ⟨result, hresult, hkept, hwritten⟩ := ih hrest hnodup hblanks'
      refine ⟨result, ?_, ?_, List.forall_mem_cons.mpr ⟨?_, hwritten⟩⟩
      · rw [List.filterMap_cons, hsome]
        simp only [Option.map_some, ofMembers, hfind field hfield, hread]
        exact hresult
      · intro name hname
        rw [List.map_cons, List.mem_cons, not_or] at hname
        rw [hkept name hname.2, Value.slot_insert_of_ne _ _ (Ne.symm hname.1)]
      · rw [hkept _ hfresh, Value.slot_record (OrderedMap.get?_insert_self start _ back)]
        exact written?_of_readsBack htyped hnull homit

/-- **A record is read back** when what its fields hold is. -/
theorem readsBack_record (hnames : catalog.Unambiguous) (hwell : catalog.WellRead)
    {type : ResolvedType} {name : String} {shape : Shape} (htype : type.bare = .record name)
    (hshape : catalog.record? name = some shape) {fields : List (String × Value)}
    (hback : ∀ field ∈ shape.fields,
      catalog.ReadsBack field.type ((Value.record fields).slot field.emitted)) :
    catalog.ReadsBack type (.record fields) := by
  have hentry := OrderedMap.mem_of_get? hshape
  have hnodup : shape.names.Nodup := (hnames.fields _ hentry).nodup
  -- a field that is left out keeps what a new record holds, which is nothing
  have hstart : ∀ field ∈ shape.fields, field.optional = true →
      (Value.record (catalog.zeroFields (.record name))).slot field.emitted = .null := by
    intro field hfield hoptional
    rw [Value.slot_record (get?_zeroFields hnodup hshape hfield)]
    have hnullable := hwell.nullable _ hentry field hfield hoptional
    cases htype : field.type with
    | nullable inner => rfl
    | _ => rw [htype] at hnullable; cases hnullable
  rw [ReadsBack, Value.typed_record htype hshape, Shape.members_writers]
  obtain ⟨result, hresult, -, hwritten⟩ := ofMembers_written (fun _ => field?_emitted hnames hshape)
    hback shape.fields (List.Subset.refl _) hnodup hstart
  refine ⟨.record result, ?_, ?_, fun hnull => by cases hnull⟩
  · simp only [ofJson, htype, hshape]
    rw [hresult]
    rfl
  · rw [Value.typed_record htype hshape, ← Shape.members_writers]
    exact congrArg Json.obj ((Shape.members_eq_iff hnodup).mpr hwritten)

/-! ### Conforming values -/

/-- **Conforming values are read back**, if the catalog knows what their types name. -/
theorem readsBack_of_conforms (hnames : catalog.Unambiguous) (hwell : catalog.WellRead)
    {type : ResolvedType} {value : Value} (h : catalog.Conforms type value) :
    catalog.Knows type → catalog.ReadsBack type value := by
  refine h.induction_bare (motive := fun type value =>
    catalog.Knows type → catalog.ReadsBack type value) ?null ?scalar ?enum ?list ?record
  case null =>
    intro type h _
    exact h.readsBack_null
  case scalar =>
    intro type s value htype hvalue hne _
    obtain ⟨back, hback, hplain⟩ := Scalar.ofJson?_plain hvalue hne
    refine readsBack_of_isLeaf (isLeaf_of_admits hvalue hne) ?_ hplain
    simp only [htype, ofLeaf, hback]
  case enum =>
    intro type name value htype hvalue hknows
    obtain ⟨back, hback, hplain⟩ :=
      ofLeaf_enum_plain hnames hwell (hknows.exists_enum htype) hvalue
    refine readsBack_of_isLeaf (isLeaf_of_enumAdmits hvalue) ?_ hplain
    rw [htype, hback]
  case list =>
    intro type element items htype ih hknows
    refine readsBack_list htype ?_
    intro item hitem
    exact ih item hitem (hknows.element htype)
  case record =>
    intro type name shape fields htype hshape ih _
    refine readsBack_record hnames hwell htype hshape ?_
    intro field hfield
    exact ih field hfield (hwell.knows shape (mem_shapes_of_record? hshape) field hfield)

/-- **Written trees are fixed points of reading and writing.**  A catalog of sheets that were
read knows the types of all its fields.  Whatever is written for a conforming value of a type
that it knows is read against that type, and what is read is written the same way. -/
theorem ofJson_typed {schema : Schema} {others : List Schema} {naming : NameStyle}
    (h : ofSchemas schema others naming = .ok catalog)
    (hread : ∀ home ∈ schema :: others, home.IsRead) (hnames : catalog.Unambiguous) :
    (∀ shape ∈ catalog.shapes, ∀ field ∈ shape.fields, catalog.Knows field.type) ∧
      ∀ type value, catalog.Knows type → catalog.Conforms type value →
        ∃ back, ofJson catalog (value.typed catalog type) type = .ok back ∧
          back.typed catalog type = value.typed catalog type := by
  have hwell := wellRead_of_ofSchemas h hread
  refine ⟨hwell.knows, ?_⟩
  intro type value hknows hvalue
  obtain ⟨back, hback, htyped, -⟩ := readsBack_of_conforms hnames hwell hvalue hknows
  exact ⟨back, hback, htyped⟩

end Catalog

/-! ### A record inside itself -/

namespace Ledger

/-- An enumeration without a member for zero, and a record that holds a list of itself. -/
def grid : Grid := ⟨#[
  #[some "[Enum]", some "Kind"],
  #[some "Name", some "Value"],
  #[some "Paid", some "1"],
  #[some "[Record]", some "Entry"],
  #[some "Name", some "Type", some "Optional"],
  #[some "Kind", some "Kind"],
  #[some "Rank", some "int?", some "true"],
  #[some "Count", some "ulong"],
  #[some "Marks", some "List<int>?"],
  #[some "Parts", some "List<Entry>"]]⟩

def kind : EnumDecl := ⟨false, .int, [⟨"Paid", some 1, 1, none, ⟨2, 0⟩⟩]⟩

def schema : Schema := ⟨"Ledger", [
  ⟨some "Kind", [], none, ⟨0, 0⟩, .enum kind⟩,
  ⟨some "Entry", [], none, ⟨3, 0⟩, .record ⟨false, [
    ⟨"Kind", .named "Kind", false, none, ⟨5, 0⟩, ⟨5, 1⟩⟩,
    ⟨"Rank", .nullable (.scalar .int), true, none, ⟨6, 0⟩, ⟨6, 1⟩⟩,
    ⟨"Count", .scalar .ulong, false, none, ⟨7, 0⟩, ⟨7, 1⟩⟩,
    ⟨"Marks", .nullable (.list (.scalar .int)), false, none, ⟨8, 0⟩, ⟨8, 1⟩⟩,
    ⟨"Parts", .list (.named "Entry"), false, none, ⟨9, 0⟩, ⟨9, 1⟩⟩]⟩⟩]⟩

def shape : Shape := ⟨[
  ⟨"Kind", "Kind", .enum "Kind", false⟩,
  ⟨"Rank", "Rank", .nullable (.scalar .int), true⟩,
  ⟨"Count", "Count", .scalar .ulong, false⟩,
  ⟨"Marks", "Marks", .nullable (.list (.scalar .int)), false⟩,
  ⟨"Parts", "Parts", .list (.record "Entry"), false⟩]⟩

def catalog : Catalog := ⟨⟨.pascal, {}⟩, [("Kind", kind)], [("Entry", shape)], [], none, ⟨[]⟩⟩

/-- An entry with a member for its kind and one part, in which nothing is written. -/
def entry : Value := .record (OrderedMap.insert
  (OrderedMap.insert (catalog.zeroFields (.record "Entry")) "Kind" (.enum "Paid"))
  "Parts" (.list [catalog.zero (.record "Entry")]))

theorem entry_conforms : catalog.Conforms (.record "Entry") entry := by
  have hdistinct : catalog.DistinctNames := by decide
  have hnodup : shape.names.Nodup := by decide
  have hzero : catalog.RowConforms shape (.record (catalog.zeroFields (.record "Entry"))) :=
    Catalog.zeroFields_conforms hdistinct rfl
  have hpaid : catalog.Conforms (.enum "Kind") (.enum "Paid") :=
    .enum ⟨kind, rfl, _, List.mem_singleton.mpr rfl, rfl⟩
  have hparts : catalog.Conforms (.list (.record "Entry"))
      (.list [catalog.zero (.record "Entry")]) := by
    refine .list ?_
    intro item hitem
    obtain rfl := List.mem_singleton.mp hitem
    exact Catalog.zero_conforms hdistinct _
  have hkind := hzero.insert hnodup
    (by decide : ⟨"Kind", "Kind", .enum "Kind", false⟩ ∈ shape.fields) hpaid
  exact (hkind.insert hnodup
    (by decide : ⟨"Parts", "Parts", .list (.record "Entry"), false⟩ ∈ shape.fields)
    hparts).conforms rfl

theorem isRead : schema.IsRead :=
  ⟨default, grid.view, toOption_eq_some_iff.mp (by decide +kernel)⟩

/-- What is written for the entry is read, and what is read is written the same way. -/
theorem ofJson_entry : ∃ back,
    Catalog.ofJson catalog (entry.typed catalog (.record "Entry")) (.record "Entry") = .ok back ∧
      back.typed catalog (.record "Entry") = .obj [
        ("Kind", .str "Paid"), ("Count", .int 0), ("Marks", .arr []),
        ("Parts", .arr [.obj [
          ("Kind", .int 0), ("Count", .int 0), ("Marks", .arr []), ("Parts", .arr [])]])] := by
  have hread : ∀ home ∈ [schema], home.IsRead := by
    intro home hhome
    obtain rfl := List.mem_singleton.mp hhome
    exact isRead
  have hnames : catalog.Unambiguous := ⟨by decide, by decide, by decide⟩
  have hknows : catalog.Knows (.record "Entry") := by
    refine ⟨?_, by simp [ResolvedType.enumNames]⟩
    intro name hname
    obtain rfl := List.mem_singleton.mp hname
    exact ⟨shape, rfl⟩
  exact (Catalog.ofJson_typed (rfl : Catalog.ofSchemas schema [] catalog.naming = .ok catalog)
    hread hnames).2 (.record "Entry") entry hknows entry_conforms

end Ledger
end TypedSheets

import TypedSheets.Proofs.RowTyping

/-!
# A tree in one cell, or its leaves in many

Nested data may be written as JSON in one cell of a column, or spread over columns
whose paths lead to its leaves.  The two go separate ways: JSON starts from the zero of
a record and overwrites its fields, while each leaf is written along its own steps,
creating records and filling up lists as it goes.  Both arrive at the same value for
trees in which every branch has a leaf and no field is named twice.

The argument follows the tree.  A slot that nothing was written to is absent or holds
its zero, so the first leaf below it opens it to exactly what JSON starts from; the
leaves of a subtree only ever touch the slot of that subtree.

## Main definitions

* `Leaf`, `Catalog.leaves` — the leaves of a tree, each with the steps that lead to it.
* `Json.isDense` — every branch of a tree has a leaf, and an index for each item.
* `Catalog.namesOnce` — no two names of an object stand for the same field.
* `Catalog.Fresh` — slots that nothing was written to.

## Main results

* `Catalog.foldlM_writeLeaf_field`, `Catalog.foldlM_writeLeaf_index` — the leaves below
  one step touch one slot.
* `Catalog.foldlM_writeSlot_leaves` — **the leaves of a tree add up to its value.**
* `Catalog.write_leaves_eq_write_tree` — **a tree in one cell and its leaves in many give
  the same row.**
-/

namespace TypedSheets

/-! ### Leaves -/

/-- A leaf of a tree: the steps to it, and what stands there under which type. -/
structure Leaf where
  steps : List Step
  type : ResolvedType
  json : Json

/-- A leaf as seen from one step further up. -/
def Leaf.below (step : Step) (leaf : Leaf) : Leaf := { leaf with steps := step :: leaf.steps }

namespace Catalog

mutual

/-- The leaves of a tree in a slot of some type, in the order of the tree. -/
def leaves (catalog : Catalog) : Json → ResolvedType → List Leaf
  | .null, type => [⟨[], type, .null⟩]
  | .bool b, type => [⟨[], type, .bool b⟩]
  | .int n, type => [⟨[], type, .int n⟩]
  | .double x, type => [⟨[], type, .double x⟩]
  | .str s, type => [⟨[], type, .str s⟩]
  | .arr items, type =>
    match type.bare with
    | .list element => itemLeaves catalog items 0 element
    | _ => []
  | .obj members, type =>
    match type.bare with
    | .record name =>
      match catalog.record? name with
      | some shape => memberLeaves catalog shape members
      | none => []
    | _ => []

/-- The leaves of the items of a list, from some index on. -/
def itemLeaves (catalog : Catalog) : List Json → Nat → ResolvedType → List Leaf
  | [], _, _ => []
  | item :: items, i, element =>
    (leaves catalog item element).map (Leaf.below (.index i element)) ++
      itemLeaves catalog items (i + 1) element

/-- The leaves of the members of an object. -/
def memberLeaves (catalog : Catalog) (shape : Shape) : List (String × Json) → List Leaf
  | [] => []
  | (name, item) :: members =>
    match catalog.field? shape name with
    | some field =>
      (leaves catalog item field.type).map (Leaf.below (.field field.emitted field.type)) ++
        memberLeaves catalog shape members
    | none => memberLeaves catalog shape members

end

/-- A value with a leaf written to it, read against its type first. -/
def writeLeaf (catalog : Catalog) (target : Value) (leaf : Leaf) : Option Value := do
  let value ← (ofJson catalog leaf.json leaf.type).toOption
  (catalog.writeAt leaf.steps value target).toOption

end Catalog

/-! ### Trees to be spread over columns -/

namespace Json

mutual

/-- Nothing in a tree is absent or empty, and every item of it has an index. -/
def isDense : Json → Bool
  | null => false
  | bool _ | int _ | double _ | str _ => true
  | arr items => !items.isEmpty && decide (items.length ≤ greatestIndex + 1) && denseItems items
  | obj members => !members.isEmpty && denseMembers members

/-- Every item is dense. -/
def denseItems : List Json → Bool
  | [] => true
  | item :: items => item.isDense && denseItems items

/-- Every member is dense. -/
def denseMembers : List (String × Json) → Bool
  | [] => true
  | (_, item) :: members => item.isDense && denseMembers members

end

end Json

namespace Catalog

mutual

/-- No two names of an object of a tree stand for the same field. -/
def namesOnce (catalog : Catalog) : Json → ResolvedType → Bool
  | .null, _ | .bool _, _ | .int _, _ | .double _, _ | .str _, _ => true
  | .arr items, type =>
    match type.bare with
    | .list element => itemNamesOnce catalog items element
    | _ => true
  | .obj members, type =>
    match type.bare with
    | .record name =>
      match catalog.record? name with
      | some shape =>
        decide (members.map fun member => catalog.field? shape member.1).Nodup &&
          memberNamesOnce catalog shape members
      | none => true
    | _ => true

/-- The same for the items of a list. -/
def itemNamesOnce (catalog : Catalog) : List Json → ResolvedType → Bool
  | [], _ => true
  | item :: items, element => namesOnce catalog item element && itemNamesOnce catalog items element

/-- The same for what the members of an object hold. -/
def memberNamesOnce (catalog : Catalog) (shape : Shape) : List (String × Json) → Bool
  | [] => true
  | (name, item) :: members =>
    (match catalog.field? shape name with
      | some field => namesOnce catalog item field.type
      | none => true) && memberNamesOnce catalog shape members

end

variable {catalog : Catalog}

/-! ### Slots that nothing was written to -/

/-- A slot that nothing was written to is absent or holds the zero of its type. -/
def Fresh (catalog : Catalog) (type : ResolvedType) (slot : Value) : Prop :=
  slot = .null ∨ slot = catalog.zero type.bare

theorem fresh_zero (catalog : Catalog) (type : ResolvedType) :
    catalog.Fresh type (catalog.zero type) := by
  induction type with
  | nullable inner _ => exact Or.inl rfl
  | reference key _ ih => exact ih
  | _ => exact Or.inr rfl

theorem fresh_blank (catalog : Catalog) (type : ResolvedType) :
    catalog.Fresh type (catalog.blank type) := by
  induction type with
  | record name => exact Or.inl rfl
  | nullable inner _ => exact Or.inl rfl
  | reference key _ ih => exact ih
  | _ => exact Or.inr rfl

theorem fresh_rowField (catalog : Catalog) (type : ResolvedType) :
    catalog.Fresh type (catalog.rowField type) := by
  cases type with
  | record name => exact Or.inl rfl
  | _ => exact fresh_zero catalog _

theorem bare_stored (type : ResolvedType) : type.stored.bare = type.bare := by
  induction type with
  | reference key _ ih => exact ih
  | _ => rfl

theorem fresh_filler (catalog : Catalog) (element : ResolvedType) :
    catalog.Fresh element (catalog.filler element) := by
  rw [filler]
  split
  · exact Or.inl rfl
  · have h := fresh_zero catalog element.stored
    rwa [Fresh, bare_stored] at h

/-! ### Leaves below one step -/

/-- A slot of some type with a leaf below it written to it, opened first. -/
def writeSlot (catalog : Catalog) (type : ResolvedType) (slot : Value) (leaf : Leaf) :
    Option Value :=
  catalog.writeLeaf (catalog.opened type leaf.steps slot) leaf

theorem writeLeaf_below_field {name : String} {type : ResolvedType}
    {fields : List (String × Value)} {slot : Value}
    (hslot : OrderedMap.get? fields name = some slot) (leaf : Leaf) :
    catalog.writeLeaf (.record fields) (leaf.below (.field name type))
      = (catalog.writeSlot type slot leaf).map fun written =>
          .record (OrderedMap.insert fields name written) := by
  simp only [writeLeaf, writeSlot, Leaf.below]
  cases (ofJson catalog leaf.json leaf.type).toOption with
  | none => rfl
  | some value =>
    simp only [Option.bind_eq_bind, Option.bind_some, writeAt, hslot, Option.getD_some]
    cases catalog.writeAt leaf.steps value (catalog.opened type leaf.steps slot) with
    | error _ => rfl
    | ok written => rfl

/-- The leaves below a field touch the slot of that field and nothing else. -/
theorem foldlM_writeLeaf_field {name : String} {type : ResolvedType} : ∀ (leaves : List Leaf)
    {fields : List (String × Value)} {slot : Value}, OrderedMap.get? fields name = some slot →
      (leaves.map (Leaf.below (.field name type))).foldlM catalog.writeLeaf (.record fields)
        = (leaves.foldlM (catalog.writeSlot type) slot).map fun written =>
            .record (OrderedMap.insert fields name written) := by
  intro leaves
  induction leaves with
  | nil =>
    intro fields slot hslot
    simp [OrderedMap.insert_eq_self hslot]
  | cons leaf leaves ih =>
    intro fields slot hslot
    rw [List.map_cons, List.foldlM_cons, List.foldlM_cons, writeLeaf_below_field hslot]
    cases catalog.writeSlot type slot leaf with
    | none => rfl
    | some written =>
      simp only [Option.map_some, Option.bind_eq_bind, Option.bind_some]
      rw [ih (OrderedMap.get?_insert_self fields name written)]
      simp only [OrderedMap.insert_insert_self]

theorem padded_succ_length (filler : Value) (items : List Value) :
    padded (items.length + 1) filler items = items ++ [filler] := by
  simp [padded]

theorem writeLeaf_below_index {i : Nat} {type : ResolvedType} {items : List Value} (leaf : Leaf)
    {slot : Value} (hslot : (padded (i + 1) (catalog.filler type) items)[i]? = some slot) :
    catalog.writeLeaf (.list items) (leaf.below (.index i type))
      = (catalog.writeSlot type slot leaf).map fun written =>
          .list ((padded (i + 1) (catalog.filler type) items).set i written) := by
  simp only [writeLeaf, writeSlot, Leaf.below]
  cases (ofJson catalog leaf.json leaf.type).toOption with
  | none => rfl
  | some value =>
    simp only [Option.bind_eq_bind, Option.bind_some, writeAt, List.getD_eq_getElem?_getD, hslot,
      Option.getD_some]
    cases catalog.writeAt leaf.steps value (catalog.opened type leaf.steps slot) with
    | error _ => rfl
    | ok written => rfl

/-- The leaves below an index that a list reaches touch the slot of that index and nothing
else. -/
theorem foldlM_writeLeaf_getElem {i : Nat} {type : ResolvedType} : ∀ (leaves : List Leaf)
    {items : List Value} {slot : Value}, items[i]? = some slot →
      (leaves.map (Leaf.below (.index i type))).foldlM catalog.writeLeaf (.list items)
        = (leaves.foldlM (catalog.writeSlot type) slot).map fun written =>
            .list (items.set i written) := by
  intro leaves
  induction leaves with
  | nil =>
    intro items slot hslot
    obtain ⟨hi, rfl⟩ := List.getElem?_eq_some_iff.mp hslot
    simp
  | cons leaf leaves ih =>
    intro items slot hslot
    -- the list reaches the index, so nothing is padded
    obtain ⟨hi, -⟩ := List.getElem?_eq_some_iff.mp hslot
    have hpadded : padded (i + 1) (catalog.filler type) items = items := padded_eq_self hi
    rw [List.map_cons, List.foldlM_cons, List.foldlM_cons,
      writeLeaf_below_index leaf (hpadded.symm ▸ hslot), hpadded]
    cases catalog.writeSlot type slot leaf with
    | none => rfl
    | some written =>
      simp only [Option.map_some, Option.bind_eq_bind, Option.bind_some]
      rw [ih (List.getElem?_set_self hi)]
      simp only [List.set_set]

/-- **The leaves below the index after the last one add one item to a list**, which starts
out as what lists are filled up with. -/
theorem foldlM_writeLeaf_index {type : ResolvedType} {leaves : List Leaf} (hne : leaves ≠ [])
    (items : List Value) :
    (leaves.map (Leaf.below (.index items.length type))).foldlM catalog.writeLeaf (.list items)
      = (leaves.foldlM (catalog.writeSlot type) (catalog.filler type)).map fun written =>
          .list (items ++ [written]) := by
  have hlast : (items ++ [catalog.filler type])[items.length]? = some (catalog.filler type) := by
    simp
  have hset : ∀ written, (items ++ [catalog.filler type]).set items.length written
      = items ++ [written] := by
    intro written
    simp
  -- only the first leaf finds the list too short; from then on it reaches the index
  have hfirst : (leaves.map (Leaf.below (.index items.length type))).foldlM catalog.writeLeaf
        (.list items)
      = (leaves.map (Leaf.below (.index items.length type))).foldlM catalog.writeLeaf
        (.list (items ++ [catalog.filler type])) := by
    cases leaves with
    | nil => exact absurd rfl hne
    | cons leaf leaves =>
      have hshort := padded_succ_length (catalog.filler type) items
      have hlong : padded (items.length + 1) (catalog.filler type)
          (items ++ [catalog.filler type]) = items ++ [catalog.filler type] :=
        padded_eq_self (by simp)
      rw [List.map_cons, List.foldlM_cons, List.foldlM_cons,
        writeLeaf_below_index leaf (hshort.symm ▸ hlast),
        writeLeaf_below_index leaf (hlong.symm ▸ hlast), hshort, hlong]
  rw [hfirst, foldlM_writeLeaf_getElem leaves hlast]
  simp only [hset]

/-! ### Opening a branch -/

theorem writeLeaf_ne_null {target written : Value} {leaf : Leaf} (hsteps : leaf.steps ≠ [])
    (h : catalog.writeLeaf target leaf = some written) : written ≠ .null := by
  obtain ⟨value, -, h⟩ := Option.bind_eq_some_iff.mp h
  exact writeAt_ne_null hsteps (toOption_eq_some_iff.mp h)

/-- A branch that is there is written to as it is. -/
theorem foldlM_writeSlot_of_ne_null {type : ResolvedType} : ∀ (leaves : List Leaf)
    {slot : Value}, (∀ leaf ∈ leaves, leaf.steps ≠ []) → slot ≠ .null →
      leaves.foldlM (catalog.writeSlot type) slot = leaves.foldlM catalog.writeLeaf slot := by
  intro leaves
  induction leaves with
  | nil => intro slot _ _; rfl
  | cons leaf leaves ih =>
    intro slot hsteps hslot
    rw [List.foldlM_cons, List.foldlM_cons, writeSlot, opened_of_ne_null hslot]
    cases hwrite : catalog.writeLeaf slot leaf with
    | none => rfl
    | some written =>
      simp only [Option.bind_eq_bind, Option.bind_some]
      exact ih (fun l hl => hsteps l (List.mem_cons_of_mem _ hl))
        (writeLeaf_ne_null (hsteps leaf (by simp)) hwrite)

/-- **A branch that nothing was written to is opened by its first leaf** to the zero of its
type. -/
theorem foldlM_writeSlot_of_fresh {type : ResolvedType} {leaves : List Leaf} {slot : Value}
    (hne : leaves ≠ []) (hsteps : ∀ leaf ∈ leaves, leaf.steps ≠ [])
    (hslot : catalog.Fresh type slot) (hzero : catalog.zero type.bare ≠ .null) :
    leaves.foldlM (catalog.writeSlot type) slot
      = leaves.foldlM catalog.writeLeaf (catalog.zero type.bare) := by
  rw [← foldlM_writeSlot_of_ne_null leaves hsteps hzero]
  rcases hslot with rfl | rfl
  · cases leaves with
    | nil => exact absurd rfl hne
    | cons leaf leaves =>
      -- only the first write finds nothing, and opens the same branch
      have hopened : catalog.opened type leaf.steps .null
          = catalog.opened type leaf.steps (catalog.zero type.bare) := by
        rw [opened_of_ne_null hzero]
        cases hleaf : leaf.steps with
        | nil => exact absurd hleaf (hsteps leaf (by simp))
        | cons step rest => rfl
      rw [List.foldlM_cons, List.foldlM_cons, writeSlot, writeSlot, hopened]
  · rfl

/-! ### Branches have leaves, and steps to them -/

theorem steps_of_mem_itemLeaves {element : ResolvedType} {leaf : Leaf} : ∀ {items : List Json}
    {i : Nat}, leaf ∈ itemLeaves catalog items i element → leaf.steps ≠ [] := by
  intro items
  induction items with
  | nil => intro i h; simp [itemLeaves] at h
  | cons item items ih =>
    intro i h
    rw [itemLeaves, List.mem_append] at h
    rcases h with h | h
    · obtain ⟨inner, -, rfl⟩ := List.mem_map.mp h
      simp [Leaf.below]
    · exact ih h

theorem steps_of_mem_memberLeaves {shape : Shape} {leaf : Leaf} :
    ∀ {members : List (String × Json)},
      leaf ∈ memberLeaves catalog shape members → leaf.steps ≠ [] := by
  intro members
  induction members with
  | nil => intro h; simp [memberLeaves] at h
  | cons member members ih =>
    intro h
    obtain ⟨name, item⟩ := member
    rw [memberLeaves] at h
    split at h
    · rw [List.mem_append] at h
      rcases h with h | h
      · obtain ⟨inner, -, rfl⟩ := List.mem_map.mp h
        simp [Leaf.below]
      · exact ih h
    · exact ih h

/-- A dense tree that can be read has a leaf: the first item or member of a branch has
one. -/
theorem leaves_ne_nil : ∀ (json : Json) {type : ResolvedType} {value : Value},
    json.isDense = true → ofJson catalog json type = .ok value →
      leaves catalog json type ≠ []
  | .null, _, _, hdense, _ => by cases hdense
  | .bool _, _, _, _, _ => by simp [leaves]
  | .int _, _, _, _, _ => by simp [leaves]
  | .double _, _, _, _, _ => by simp [leaves]
  | .str _, _, _, _, _ => by simp [leaves]
  | .arr [], _, _, hdense, _ => by cases hdense
  | .arr (item :: items), type, _, hdense, h => by
    simp only [Json.isDense, Json.denseItems, Bool.and_eq_true] at hdense
    cases htype : type.bare with
    | list element =>
      simp only [ofJson, htype] at h
      -- the first item was read, and has a leaf by induction
      obtain ⟨values, hvalues, -⟩ := map_eq_ok.mp h
      rw [ofItems] at hvalues
      obtain ⟨value, hvalue, -⟩ := bind_eq_ok.mp hvalues
      simp [leaves, htype, itemLeaves, leaves_ne_nil item hdense.2.1 hvalue]
    | _ =>
      simp only [ofJson, htype] at h
      cases h
  | .obj [], _, _, hdense, _ => by cases hdense
  | .obj ((name, item) :: members), type, _, hdense, h => by
    simp only [Json.isDense, Json.denseMembers, Bool.and_eq_true] at hdense
    cases htype : type.bare with
    | record recordName =>
      cases hshape : catalog.record? recordName with
      | none =>
        simp only [ofJson, htype, hshape] at h
        cases h
      | some shape =>
        simp only [ofJson, htype, hshape] at h
        obtain ⟨fields, hfields, -⟩ := map_eq_ok.mp h
        -- so was the first member, under the name of a field
        rw [ofMembers] at hfields
        cases hfield : catalog.field? shape name with
        | none =>
          simp only [hfield] at hfields
          cases hfields
        | some field =>
          simp only [hfield] at hfields
          obtain ⟨value, hvalue, -⟩ := bind_eq_ok.mp hfields
          simp [leaves, htype, hshape, memberLeaves, hfield,
            leaves_ne_nil item hdense.2.1 hvalue]
    | _ =>
      simp only [ofJson, htype] at h
      cases h

/-! ### The leaves of a tree add up to its value -/

theorem writeSlot_leaf {type : ResolvedType} {slot value : Value} {json : Json}
    (h : ofJson catalog json type = .ok value) :
    [⟨[], type, json⟩].foldlM (catalog.writeSlot type) slot = some value := by
  simp [writeSlot, writeLeaf, h, writeAt, Except.toOption]

mutual

/-- **The leaves of a tree add up to its value**, in any slot that nothing was written
to. -/
theorem foldlM_writeSlot_leaves (hdistinct : catalog.DistinctNames) : ∀ (json : Json)
    {type : ResolvedType} {slot value : Value}, json.isDense = true →
      namesOnce catalog json type = true → ofJson catalog json type = .ok value →
      catalog.Fresh type slot →
      (leaves catalog json type).foldlM (catalog.writeSlot type) slot = some value
  | .null, _, _, _, hdense, _, _, _ => by cases hdense
  | .bool _, _, _, _, _, _, h, _ => by rw [leaves]; exact writeSlot_leaf h
  | .int _, _, _, _, _, _, h, _ => by rw [leaves]; exact writeSlot_leaf h
  | .double _, _, _, _, _, _, h, _ => by rw [leaves]; exact writeSlot_leaf h
  | .str _, _, _, _, _, _, h, _ => by rw [leaves]; exact writeSlot_leaf h
  | .arr items, type, slot, value, hdense, honce, h, hslot => by
    have hne := leaves_ne_nil (.arr items) hdense h
    rw [ofJson] at h
    rw [leaves] at hne ⊢
    rw [namesOnce] at honce
    split at h
    · next element htype =>
      simp only [htype] at hne honce ⊢
      obtain ⟨values, hvalues, rfl⟩ := map_eq_ok.mp h
      simp only [Json.isDense, Bool.and_eq_true] at hdense
      -- the first leaf opens the slot, and all of them then go into an empty list
      have hzero : catalog.zero type.bare = .list [] := by rw [htype]; rfl
      rw [foldlM_writeSlot_of_fresh hne (fun _ => steps_of_mem_itemLeaves) hslot
        (by simp [hzero]), hzero]
      simpa using foldlM_writeLeaf_itemLeaves hdistinct items [] hdense.2 honce hvalues
    · cases h
  | .obj members, type, slot, value, hdense, honce, h, hslot => by
    have hne := leaves_ne_nil (.obj members) hdense h
    rw [ofJson] at h
    rw [leaves] at hne ⊢
    rw [namesOnce] at honce
    split at h
    · next name htype =>
      simp only [htype] at hne honce ⊢
      split at h
      · next shape hshape =>
        simp only [hshape, Bool.and_eq_true, decide_eq_true_eq] at hne honce ⊢
        obtain ⟨fields, hfields, rfl⟩ := map_eq_ok.mp h
        simp only [Json.isDense, Bool.and_eq_true] at hdense
        -- the record that the first leaf opens is the one that a tree is read into
        have hzero : catalog.zero type.bare = .record (catalog.zeroFields (.record name)) := by
          simp [htype, zeroFields, zero, hshape, Value.fields?]
        rw [foldlM_writeSlot_of_fresh hne (fun _ => steps_of_mem_memberLeaves) hslot
          (by simp [hzero]), hzero]
        refine foldlM_writeLeaf_memberLeaves hdistinct (hdistinct.of_record hshape) members
          hdense.2 honce.1 honce.2 ?_ hfields
        intro member hmember field hfield
        -- a new record holds the blank of each field, which is fresh
        exact ⟨_, get?_zeroFields (hdistinct.of_record hshape) hshape (field?_mem hfield),
          fresh_blank catalog _⟩
      · cases h
    · cases h

theorem foldlM_writeLeaf_itemLeaves (hdistinct : catalog.DistinctNames) :
    ∀ (items : List Json) (done : List Value) {element : ResolvedType} {values : List Value},
      Json.denseItems items = true → itemNamesOnce catalog items element = true →
      ofItems catalog items element = .ok values →
      (itemLeaves catalog items done.length element).foldlM catalog.writeLeaf (.list done)
        = some (.list (done ++ values))
  | [], done, _, _, _, _, h => by
    rw [ofItems] at h
    cases h
    simp [itemLeaves]
  | item :: items, done, element, _, hdense, honce, h => by
    rw [ofItems] at h
    obtain ⟨value, hvalue, h⟩ := bind_eq_ok.mp h
    obtain ⟨values, hvalues, h⟩ := bind_eq_ok.mp h
    cases h
    simp only [Json.denseItems, Bool.and_eq_true] at hdense
    simp only [itemNamesOnce, Bool.and_eq_true] at honce
    -- the list is one item short of this index, so the slot is a filler
    have hitem := foldlM_writeSlot_leaves hdistinct item hdense.1 honce.1 hvalue
      (fresh_filler catalog element)
    have hrest := foldlM_writeLeaf_itemLeaves hdistinct items (done ++ [value]) hdense.2 honce.2
      hvalues
    rw [itemLeaves, List.foldlM_append,
      foldlM_writeLeaf_index (leaves_ne_nil item hdense.1 hvalue), hitem]
    simpa using hrest

/-- The members still to come stand for fields that nothing was written to. -/
theorem foldlM_writeLeaf_memberLeaves (hdistinct : catalog.DistinctNames) {shape : Shape}
    (hnames : shape.names.Nodup) {unknown : Mismatch} : ∀ (members : List (String × Json))
    {fields result : List (String × Value)}, Json.denseMembers members = true →
      (members.map fun member => catalog.field? shape member.1).Nodup →
      memberNamesOnce catalog shape members = true →
      (∀ member ∈ members, ∀ field, catalog.field? shape member.1 = some field →
        ∃ slot, OrderedMap.get? fields field.emitted = some slot ∧
          catalog.Fresh field.type slot) →
      ofMembers catalog unknown shape members fields = .ok result →
      (memberLeaves catalog shape members).foldlM catalog.writeLeaf (.record fields)
        = some (.record result)
  | [], _, _, _, _, _, _, h => by
    rw [ofMembers] at h
    cases h
    simp [memberLeaves]
  | (name, item) :: members, fields, _, hdense, hnodup, honce, hfresh, h => by
    rw [ofMembers] at h
    split at h
    · next field hfield =>
      obtain ⟨value, hvalue, h⟩ := bind_eq_ok.mp h
      simp only [Json.denseMembers, Bool.and_eq_true] at hdense
      simp only [memberNamesOnce, hfield, Bool.and_eq_true] at honce
      rw [List.map_cons, List.nodup_cons] at hnodup
      obtain ⟨slot, hget, hslot⟩ := hfresh (name, item) (by simp) field hfield
      have hitem := foldlM_writeSlot_leaves hdistinct item hdense.1 honce.1 hvalue hslot
      rw [memberLeaves]
      simp only [hfield]
      rw [List.foldlM_append, foldlM_writeLeaf_field _ hget, hitem]
      refine foldlM_writeLeaf_memberLeaves hdistinct hnames members hdense.2 hnodup.2 honce.2 ?_ h
      intro member hmember other hother
      -- a later member stands for another field, which has another name
      have hne : field.emitted ≠ other.emitted := by
        intro heq
        obtain rfl := Shape.eq_of_emitted_eq hnames (field?_mem hfield) (field?_mem hother) heq
        exact hnodup.1 (List.mem_map.mpr ⟨member, hmember, hother.trans hfield.symm⟩)
      rw [OrderedMap.get?_insert_of_ne _ _ hne]
      exact hfresh member (List.mem_cons_of_mem _ hmember) other hother
    · cases h

end

/-! ### The steps to a leaf -/

variable {entity : Shape}

mutual

/-- The types allow the steps to a leaf. -/
theorem leads_of_mem_leaves : ∀ (json : Json) {type : ResolvedType} {leaf : Leaf},
    json.isDense = true → leaf ∈ leaves catalog json type →
      Step.Leads catalog entity (some type.bare) leaf.steps
  | .null, _, _, hdense, _ => by cases hdense
  | .bool _, _, _, _, h => by rw [leaves, List.mem_singleton] at h; rw [h]; trivial
  | .int _, _, _, _, h => by rw [leaves, List.mem_singleton] at h; rw [h]; trivial
  | .double _, _, _, _, h => by rw [leaves, List.mem_singleton] at h; rw [h]; trivial
  | .str _, _, _, _, h => by rw [leaves, List.mem_singleton] at h; rw [h]; trivial
  | .arr items, type, _, hdense, h => by
    rw [leaves] at h
    simp only [Json.isDense, Bool.and_eq_true, decide_eq_true_eq] at hdense
    split at h
    · next element htype =>
      rw [htype]
      exact leads_of_mem_itemLeaves items (by omega) hdense.2 h
    · cases h
  | .obj members, type, _, hdense, h => by
    rw [leaves] at h
    simp only [Json.isDense, Bool.and_eq_true] at hdense
    split at h
    · next name htype =>
      rw [htype]
      split at h
      · next shape hshape => exact leads_of_mem_memberLeaves hshape members hdense.2 h
      · cases h
    · cases h

theorem leads_of_mem_itemLeaves : ∀ (items : List Json) {i : Nat} {element : ResolvedType}
    {leaf : Leaf}, i + items.length ≤ greatestIndex + 1 → Json.denseItems items = true →
      leaf ∈ itemLeaves catalog items i element →
      Step.Leads catalog entity (some (.list element)) leaf.steps
  | [], _, _, _, _, _, h => by simp [itemLeaves] at h
  | item :: items, i, element, _, hlength, hdense, h => by
    rw [List.length_cons] at hlength
    simp only [Json.denseItems, Bool.and_eq_true] at hdense
    rw [itemLeaves, List.mem_append] at h
    rcases h with h | h
    · obtain ⟨inner, hinner, rfl⟩ := List.mem_map.mp h
      exact ⟨.index (by omega), leads_of_mem_leaves item hdense.1 hinner⟩
    · exact leads_of_mem_itemLeaves items (by omega) hdense.2 h

theorem leads_of_mem_memberLeaves {name : String} {shape : Shape}
    (hshape : catalog.record? name = some shape) : ∀ (members : List (String × Json))
    {leaf : Leaf}, Json.denseMembers members = true → leaf ∈ memberLeaves catalog shape members →
      Step.Leads catalog entity (some (.record name)) leaf.steps
  | [], _, _, h => by simp [memberLeaves] at h
  | (member, item) :: members, _, hdense, h => by
    simp only [Json.denseMembers, Bool.and_eq_true] at hdense
    rw [memberLeaves] at h
    split at h
    · next field hfield =>
      rw [List.mem_append] at h
      rcases h with h | h
      · obtain ⟨inner, hinner, rfl⟩ := List.mem_map.mp h
        exact ⟨.field hshape (field?_mem hfield), leads_of_mem_leaves item hdense.1 hinner⟩
      · exact leads_of_mem_memberLeaves hshape members hdense.2 h
    · exact leads_of_mem_memberLeaves hshape members hdense.2 h

end

/-! ### The tree in one cell -/

theorem bare_bare (type : ResolvedType) : type.bare.bare = type.bare := by
  induction type with
  | nullable inner ih => exact ih
  | reference key _ ih => exact ih
  | _ => rfl

/-- Only for `null` does it count whether a type is nullable. -/
theorem ofJson_bare {json : Json} (hne : json ≠ .null) (type : ResolvedType) :
    ofJson catalog json type.bare = ofJson catalog json type := by
  cases json with
  | null => exact absurd rfl hne
  | _ => simp only [ofJson, bare_bare]

/-- The text of a cell of a list or record is read as the tree it spells. -/
theorem ofText_eq_ofJson {type : ResolvedType} {text : String} {json : Json}
    (htype : (∃ element, type.bare = .list element) ∨ ∃ name, type.bare = .record name)
    (hread : Json.read? text = some json) (hne : json ≠ .null) :
    catalog.ofText type text = ofJson catalog json type := by
  rw [← ofJson_bare hne, ofText]
  rcases htype with ⟨element, htype⟩ | ⟨name, htype⟩
  · simp [htype, hread]
  · simp [htype, hread]

theorem get?_newRow {field : Field} (hnames : entity.names.Nodup)
    (hfield : field ∈ entity.fields) :
    ∃ fields, catalog.newRow entity = .record fields ∧
      OrderedMap.get? fields field.emitted = some (catalog.rowField field.type) :=
  ⟨_, rfl, Shape.get?_ofList hnames catalog.rowField hfield⟩

/-- **A tree in one cell and its leaves in many give the same row.**  Let a field hold lists
or records, and let a dense tree in which no object names a field twice be a value of its
type.  Then the types allow the steps to every leaf; writing the leaves one after another to
a new row succeeds and leaves that value in the field; and the cell that spells the tree
gives the very same row. -/
theorem write_leaves_eq_write_tree (hdistinct : catalog.DistinctNames)
    (hentity : catalog.entity = some entity) {field : Field} (hfield : field ∈ entity.fields)
    (htype : (∃ element, field.type.bare = .list element) ∨
      ∃ name, field.type.bare = .record name)
    {json : Json} {value : Value} (hdense : json.isDense = true)
    (honce : namesOnce catalog json field.type = true)
    (hvalue : ofJson catalog json field.type = .ok value) :
    (∀ leaf ∈ leaves catalog json field.type,
      Step.Leads catalog entity none (leaf.below (.field field.emitted field.type)).steps) ∧
    ∃ row, ((leaves catalog json field.type).map
        (Leaf.below (.field field.emitted field.type))).foldlM catalog.writeLeaf
          (catalog.newRow entity) = some row ∧
      row.get? field.emitted = some value ∧
      ∀ text, Json.read? text = some json →
        ∃ stored, catalog.ofText field.type text = .ok stored ∧
          catalog.writeAt [.field field.emitted field.type] stored (catalog.newRow entity)
            = .ok row := by
  refine ⟨fun leaf hleaf => ⟨.row hfield, leads_of_mem_leaves json hdense hleaf⟩, ?_⟩
  -- a new row holds something fresh in the field, to which all leaves go
  obtain ⟨fields, hnew, hget⟩ := get?_newRow (hdistinct.1 entity hentity) hfield
  have hleaves := foldlM_writeSlot_leaves hdistinct json hdense honce hvalue
    (fresh_rowField catalog field.type)
  refine ⟨.record (OrderedMap.insert fields field.emitted value), ?_, ?_, ?_⟩
  · rw [hnew, foldlM_writeLeaf_field _ hget, hleaves]
    rfl
  · simp [Value.get?, Value.fields?]
  · intro text hread
    have hne : json ≠ .null := by
      rintro rfl
      cases hdense
    refine ⟨value, (ofText_eq_ofJson htype hread hne).trans hvalue, ?_⟩
    rw [hnew]
    rfl

end Catalog

namespace Trees

/-- Two nodes, the first with one below it. -/
def forest : Json := .arr [
  .obj [("Kind", .str "Leaf"), ("Next", .obj [("Marks", .arr [.int 3, .int 4])])],
  .obj [("Marks", .arr [.int 7])]]

def nodesField : Field := ⟨"Nodes", "Nodes", .list (.record "Node"), false⟩

/-- The nodes as one cell has them. -/
def forestText : String :=
  "[\x7b\"Kind\": \"Leaf\", \"Next\": \x7b\"Marks\": [3, 4]\x7d\x7d, \x7b\"Marks\": [7]\x7d]"

theorem read?_forestText : Json.read? forestText = some forest := by with_unfolding_all rfl

/-- The four leaves of two nodes give the row that the nodes in one cell give. -/
theorem write_leaves_forest : (catalog.leaves forest nodesField.type).length = 4 ∧
    ∃ value row stored, ((catalog.leaves forest nodesField.type).map
        (Leaf.below (.field "Nodes" nodesField.type))).foldlM catalog.writeLeaf
          (catalog.newRow shape) = some row ∧
      row.get? "Nodes" = some value ∧ catalog.ofJson forest nodesField.type = .ok value ∧
      catalog.ofText nodesField.type forestText = .ok stored ∧
      catalog.writeAt [.field "Nodes" nodesField.type] stored (catalog.newRow shape)
        = .ok row := by
  obtain ⟨value, hvalue⟩ : ∃ value, catalog.ofJson forest nodesField.type = .ok value :=
    exists_ok_of_isOk (by decide +kernel)
  have hnodes : nodesField ∈ shape.fields := by decide
  obtain ⟨-, row, hrow, hget, hcell⟩ := Catalog.write_leaves_eq_write_tree
    distinctNames rfl hnodes (Or.inl ⟨_, rfl⟩) (by decide) (by decide +kernel) hvalue
  obtain ⟨stored, hstored, hwrite⟩ := hcell forestText read?_forestText
  exact ⟨by decide, value, row, stored, hrow, hget, hvalue, hstored, hwrite⟩

end Trees
end TypedSheets

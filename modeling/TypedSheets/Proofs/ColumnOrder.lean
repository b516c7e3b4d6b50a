import TypedSheets.Proofs.RowOutcome

/-!
# The order of data columns

The cells of a row are written one after another, and on its way one cell may create a
record or fill up a list that the next one goes into.  Still, columns whose paths do not
run into each other may stand in any order.

A step finds a slot in its container and puts it back, and two steps into different slots
do not see each other; lists are filled up with the same items whichever index comes
first.  Paths that share their first steps part at some slot below, so the argument goes
down along them.

## Main definitions

* `Slot`, `Step.slot` — what a step goes into.
* `Step.Apart`, `Plan.Apart` — paths of which neither is equal to or the beginning of the
  other.
* `Catalog.slotAt`, `Catalog.withSlot` — what a step finds, and the container with that
  replaced.

## Main results

* `Catalog.writeAt_cons` — one step: find, write the rest, put back.
* `Catalog.slotAt_withSlot_of_ne`, `Catalog.withSlot_comm` — steps into different slots.
* `Catalog.writeAt_comm` — **writes along paths that are apart commute.**
* `Catalog.foldlM_writeCell_perm` — a row, its columns in another order.
* `Catalog.readRows_perm` — **the order of columns that are apart does not matter.**
-/

namespace TypedSheets

/-! ### Slots and paths -/

/-- What a step goes into: a field by its generated name, or an item by its index. -/
inductive Slot where
  | field (name : String)
  | index (i : Nat)
  deriving DecidableEq, Repr

namespace Step

/-- The slot a step goes into. -/
def slot : Step → Slot
  | field name _ => .field name
  | index i _ => .index i

/-- Paths of which neither is equal to or the beginning of the other. -/
def Apart (left right : List Step) : Prop :=
  ¬ left.map slot <+: right.map slot ∧ ¬ right.map slot <+: left.map slot

instance (left right : List Step) : Decidable (Apart left right) :=
  inferInstanceAs (Decidable (_ ∧ _))

theorem Apart.symm {left right : List Step} (h : Apart left right) : Apart right left :=
  ⟨h.2, h.1⟩

theorem Apart.ne_nil {left right : List Step} (h : Apart left right) : left ≠ [] := by
  rintro rfl
  exact h.1 List.nil_prefix

/-- Paths that start with the same step are apart after it. -/
theorem Apart.of_cons {step : Step} {left right : List Step}
    (h : Apart (step :: left) (step :: right)) : Apart left right := by
  simpa [Apart, List.cons_prefix_cons] using h

variable {catalog : Catalog} {entity : Shape}

/-- From one place, the types allow only one step into each slot. -/
theorem Allowed.eq_of_slot_eq (hdistinct : catalog.DistinctNames) (hnames : entity.names.Nodup)
    {current : Option ResolvedType} {step other : Step}
    (hstep : Allowed catalog entity current step) (hother : Allowed catalog entity current other)
    (h : step.slot = other.slot) : step = other := by
  cases hstep with
  | row hfound =>
    cases hother with
    | row hfound' =>
      obtain rfl := Shape.eq_of_emitted_eq hnames hfound hfound' (Slot.field.inj h)
      rfl
  | field hshape hfound =>
    cases hother with
    | field hshape' hfound' =>
      obtain rfl := Option.some.inj (hshape.symm.trans hshape')
      obtain rfl := Shape.eq_of_emitted_eq (hdistinct.of_record hshape) hfound hfound'
        (Slot.field.inj h)
      rfl
  | index _ =>
    cases hother with
    | index _ =>
      obtain rfl := Slot.index.inj h
      rfl

end Step

/-- Columns whose paths are apart. -/
def Plan.Apart (left right : Plan) : Prop := Step.Apart left.steps right.steps

instance (left right : Plan) : Decidable (left.Apart right) :=
  inferInstanceAs (Decidable (Step.Apart _ _))

namespace Catalog

/-! ### One step -/

/-- What a step finds in its container; a list is filled up first. -/
def slotAt (catalog : Catalog) : Step → Value → Value
  | .field name _, .record fields => (OrderedMap.get? fields name).getD .null
  | .index i type, .list items => (padded (i + 1) (catalog.filler type) items).getD i .null
  | _, _ => .null

/-- A container with what a step finds in it replaced. -/
def withSlot (catalog : Catalog) : Step → Value → Value → Value
  | .field name _, .record fields, slot => .record (OrderedMap.insert fields name slot)
  | .index i type, .list items, slot =>
    .list ((padded (i + 1) (catalog.filler type) items).set i slot)
  | _, target, _ => target

/-- A step fits a value that has the slot it goes into; a list can be filled up. -/
inductive Fits : Step → Value → Prop
  | field {name : String} {type : ResolvedType} {fields : List (String × Value)}
      (h : name ∈ fields.map Prod.fst) : Fits (.field name type) (.record fields)
  | index {i : Nat} {type : ResolvedType} {items : List Value} :
      Fits (.index i type) (.list items)

variable {catalog : Catalog} {entity : Shape} {step other : Step} {target : Value}

/-- One step of writing: find a slot, write the rest to it, put it back. -/
theorem writeAt_cons (h : Fits step target) (rest : List Step) (value : Value) :
    catalog.writeAt (step :: rest) value target
      = (catalog.writeAt rest value
          (catalog.opened step.type rest (catalog.slotAt step target))).map
            (catalog.withSlot step target) := by
  cases h with
  | @field name type fields _ =>
    simp only [writeAt, slotAt, Step.type]
    cases catalog.writeAt rest value
        (catalog.opened type rest ((OrderedMap.get? fields name).getD .null)) with
    | error _ => rfl
    | ok _ => rfl
  | @index i type items =>
    simp only [writeAt, slotAt, Step.type]
    cases catalog.writeAt rest value (catalog.opened type rest
        ((padded (i + 1) (catalog.filler type) items).getD i .null)) with
    | error _ => rfl
    | ok _ => rfl

theorem slotAt_withSlot_self (h : Fits step target) (slot : Value) :
    catalog.slotAt step (catalog.withSlot step target slot) = slot := by
  cases h with
  | field _ => simp [slotAt, withSlot]
  | @index i type items =>
    -- the list was padded up to the item, so that padding it again does nothing
    have hlt : i < (padded (i + 1) (catalog.filler type) items).length := by
      rw [length_padded]
      omega
    have hfull : i + 1 ≤ ((padded (i + 1) (catalog.filler type) items).set i slot).length := by
      rw [List.length_set]
      exact hlt
    simp only [slotAt, withSlot]
    rw [padded_eq_self hfull, List.getD_eq_getElem?_getD, List.getElem?_set_self hlt,
      Option.getD_some]

theorem withSlot_withSlot_self (h : Fits step target) (a b : Value) :
    catalog.withSlot step (catalog.withSlot step target a) b = catalog.withSlot step target b := by
  cases h with
  | field _ => simp [withSlot]
  | @index i type items =>
    have hfull : i + 1 ≤ ((padded (i + 1) (catalog.filler type) items).set i a).length := by
      rw [List.length_set, length_padded]
      omega
    simp only [withSlot]
    rw [padded_eq_self hfull, List.set_set]

theorem Fits.withSlot (h : Fits step target) (hother : Fits other target) (slot : Value) :
    Fits other (catalog.withSlot step target slot) := by
  cases h with
  | field hname =>
    cases hother with
    | field hother =>
      refine .field ?_
      rw [OrderedMap.names_insert_of_mem slot hname]
      exact hother
  | index =>
    cases hother with
    | index => exact .index

/-! ### Two steps into different slots -/

theorem padded_padded (m n : Nat) (filler : Value) (items : List Value) :
    padded n filler (padded m filler items) = padded (max m n) filler items := by
  simp only [padded, List.length_append, List.length_replicate, List.append_assoc,
    List.replicate_append_replicate]
  congr 2
  omega

theorem padded_set {n i : Nat} {filler slot : Value} {items : List Value} (h : i < items.length) :
    padded n filler (items.set i slot) = (padded n filler items).set i slot := by
  rw [padded, padded, List.set_append_left _ _ h, List.length_set]

theorem getElem?_padded {n i : Nat} (filler : Value) (items : List Value) (h : i < n) :
    (padded n filler items)[i]? = some (items[i]?.getD filler) := by
  rw [padded]
  rcases Nat.lt_or_ge i items.length with hlt | hge
  · rw [List.getElem?_append_left hlt, List.getElem?_eq_getElem hlt, Option.getD_some]
  · rw [List.getElem?_append_right hge, List.getElem?_replicate, if_pos (by omega),
      List.getElem?_eq_none hge, Option.getD_none]

/-- A list filled up for two indices, one of them written to. -/
theorem padded_set_padded (i j : Nat) (filler slot : Value) (items : List Value) :
    padded (j + 1) filler ((padded (i + 1) filler items).set i slot)
      = (padded (max (i + 1) (j + 1)) filler items).set i slot := by
  have hlt : i < (padded (i + 1) filler items).length := by
    rw [length_padded]
    omega
  rw [padded_set hlt, padded_padded]

section Siblings

variable {current : Option ResolvedType} (hstep : Step.Allowed catalog entity current step)
  (hother : Step.Allowed catalog entity current other) (hne : step.slot ≠ other.slot)
  (hfits : Fits step target) (hfits' : Fits other target)

include hstep hother hne hfits hfits'

/-- A step does not see what another step put into a different slot. -/
theorem slotAt_withSlot_of_ne (slot : Value) :
    catalog.slotAt other (catalog.withSlot step target slot) = catalog.slotAt other target := by
  cases hfits with
  | @field name _ fields _ =>
    cases hfits' with
    | @field name' _ _ _ =>
      have hname : name ≠ name' := fun h => hne (congrArg Slot.field h)
      simp only [slotAt, withSlot]
      rw [OrderedMap.get?_insert_of_ne fields slot hname]
  | @index i type items =>
    cases hfits' with
    | @index j type' _ =>
      -- both go into one list, so they fill it up with the same items
      cases hstep
      cases hother
      have hij : i ≠ j := fun h => hne (congrArg Slot.index h)
      simp only [slotAt, withSlot, List.getD_eq_getElem?_getD]
      rw [padded_set_padded, List.getElem?_set_ne hij, getElem?_padded _ _ (by omega),
        getElem?_padded _ _ (by omega)]

/-- Different slots can be replaced in either order. -/
theorem withSlot_comm (a b : Value) :
    catalog.withSlot other (catalog.withSlot step target a) b
      = catalog.withSlot step (catalog.withSlot other target b) a := by
  cases hfits with
  | @field name _ fields hname =>
    cases hfits' with
    | @field name' _ _ hname' =>
      -- fields of one record: both names are there, so neither insertion adds one
      have hnames : name ≠ name' := fun h => hne (congrArg Slot.field h)
      simp only [withSlot]
      rw [OrderedMap.insert_comm hnames hname hname']
  | @index i type items =>
    cases hfits' with
    | @index j type' _ =>
      cases hstep
      cases hother
      -- items of one list: it ends up as long as the later of them needs
      have hij : i ≠ j := fun h => hne (congrArg Slot.index h)
      simp only [withSlot]
      rw [padded_set_padded, padded_set_padded, List.set_comm _ _ hij, Nat.max_comm]

end Siblings

/-! ### All steps -/

/-- A step that the types allow fits what a path has come to. -/
theorem fits_of_allowed {current : Option ResolvedType}
    (hstep : Step.Allowed catalog entity current step)
    (htarget : catalog.Holds entity current target) (hne : target ≠ .null) : Fits step target := by
  cases hstep with
  | row hfound =>
    obtain ⟨fields, rfl, hnames, -⟩ := htarget
    exact .field (hnames ▸ Shape.emitted_mem_names hfound)
  | field hshape hfound =>
    rcases Conforms.record_cases htarget with rfl | ⟨shape', hshape', fields, rfl, hnames, -⟩
    · exact absurd rfl hne
    obtain rfl := Option.some.inj (hshape.symm.trans hshape')
    exact .field (hnames ▸ Shape.emitted_mem_names hfound)
  | index _ =>
    obtain ⟨items, rfl, -⟩ := Conforms.list_cases htarget
    exact .index

/-- What a step finds conforms to the type of the slot. -/
theorem slotAt_conforms (hdistinct : catalog.DistinctNames) {current : Option ResolvedType}
    (hstep : Step.Allowed catalog entity current step)
    (htarget : catalog.Holds entity current target) (hne : target ≠ .null) :
    catalog.Conforms step.type (catalog.slotAt step target) := by
  cases hstep with
  | row hfound =>
    obtain ⟨fields, rfl⟩ := RowConforms.exists_fields htarget
    obtain ⟨slot, hget, hslot⟩ := RowConforms.exists_get? htarget hfound
    rw [slotAt, hget]
    exact hslot
  | field hshape hfound =>
    rcases Conforms.record_cases htarget with rfl | ⟨shape', hshape', hrow⟩
    · exact absurd rfl hne
    obtain rfl := Option.some.inj (hshape.symm.trans hshape')
    obtain ⟨fields, rfl⟩ := hrow.exists_fields
    obtain ⟨slot, hget, hslot⟩ := hrow.exists_get? hfound
    rw [slotAt, hget]
    exact hslot
  | @index element i _ =>
    obtain ⟨items, rfl, hitems⟩ := Conforms.list_cases htarget
    have hslot : (padded (i + 1) (catalog.filler element) items)[i]?
        = some (items[i]?.getD (catalog.filler element)) := getElem?_padded _ _ (by omega)
    rw [slotAt, List.getD_eq_getElem?_getD, hslot]
    exact padded_conforms hdistinct hitems (i + 1) _ (List.mem_of_getElem? hslot)

/-- Two writes that start with the same step are made one after the other to the slot that
it finds, which the first of them opens. -/
theorem writeAt_writeAt_of_same {first second : Step} {later latest : List Step} {a b : Value}
    (h : Fits step target) :
    (catalog.writeAt (step :: first :: later) a target >>=
        catalog.writeAt (step :: second :: latest) b)
      = (catalog.writeAt (first :: later) a
            (catalog.opened step.type (first :: later) (catalog.slotAt step target)) >>=
          catalog.writeAt (second :: latest) b).map (catalog.withSlot step target) := by
  rw [writeAt_cons h]
  cases hwrite : catalog.writeAt (first :: later) a
      (catalog.opened step.type (first :: later) (catalog.slotAt step target)) with
  | error _ => rfl
  | ok slot =>
    -- the first write leaves something in the slot, so the second does not open it again
    have hslot : slot ≠ .null := writeAt_ne_null (by simp) hwrite
    have hagain : Fits step (catalog.withSlot step target slot) := h.withSlot h slot
    simp only [Except.map, bind, Except.bind]
    rw [writeAt_cons hagain, slotAt_withSlot_self h, opened_of_ne_null hslot]
    cases catalog.writeAt (second :: latest) b slot with
    | error _ => rfl
    | ok written => simp only [Except.map, withSlot_withSlot_self h]

/-- Two writes that start with different steps are made to the slots that they find. -/
theorem writeAt_writeAt_of_ne {current : Option ResolvedType}
    (hstep : Step.Allowed catalog entity current step)
    (hother : Step.Allowed catalog entity current other) (hne : step.slot ≠ other.slot)
    (hfits : Fits step target) (hfits' : Fits other target) {later latest : List Step}
    {a b x y : Value}
    (hx : catalog.writeAt later a
      (catalog.opened step.type later (catalog.slotAt step target)) = .ok x)
    (hy : catalog.writeAt latest b
      (catalog.opened other.type latest (catalog.slotAt other target)) = .ok y) :
    (catalog.writeAt (step :: later) a target >>= catalog.writeAt (other :: latest) b)
      = .ok (catalog.withSlot other (catalog.withSlot step target x) y) := by
  have hagain : Fits other (catalog.withSlot step target x) := hfits.withSlot hfits' x
  rw [writeAt_cons hfits, hx]
  simp only [Except.map, bind, Except.bind]
  rw [writeAt_cons hagain, slotAt_withSlot_of_ne hstep hother hne hfits hfits', hy]
  rfl

/-- **Writes along paths that are apart commute.**  The induction is over the first path; as
long as the two share their steps, both go on in the same slot. -/
theorem writeAt_comm (hdistinct : catalog.DistinctNames) (hnames : entity.names.Nodup)
    {a b : Value} : ∀ (left right : List Step) {current : Option ResolvedType} {target : Value},
    Step.Apart left right → Step.Leads catalog entity current left →
    Step.Leads catalog entity current right → catalog.Holds entity current target →
    target ≠ .null →
    (∀ last, left.getLast? = some last → catalog.Conforms last.type a) →
    (∀ last, right.getLast? = some last → catalog.Conforms last.type b) →
    (catalog.writeAt left a target >>= catalog.writeAt right b)
      = (catalog.writeAt right b target >>= catalog.writeAt left a) := by
  intro left
  induction left with
  | nil => intro _ _ _ hapart; exact absurd rfl hapart.ne_nil
  | cons step later ih =>
    intro right current target hapart hleft hright htarget hne ha hb
    cases right with
    | nil => exact absurd rfl hapart.symm.ne_nil
    | cons other latest =>
      obtain ⟨hstep, hlater⟩ := hleft
      obtain ⟨hother, hlatest⟩ := hright
      have hfits := fits_of_allowed hstep htarget hne
      have hslot := slotAt_conforms hdistinct hstep htarget hne
      by_cases hsame : step.slot = other.slot
      · obtain rfl := Step.Allowed.eq_of_slot_eq hdistinct hnames hstep hother hsame
        have hrest := hapart.of_cons
        obtain ⟨first, later, rfl⟩ := List.exists_cons_of_ne_nil hrest.ne_nil
        obtain ⟨second, latest, rfl⟩ := List.exists_cons_of_ne_nil hrest.symm.ne_nil
        -- whichever write comes first opens the slot to the same container
        obtain ⟨hopened, hopened_ne⟩ := opened_conforms hdistinct later hlater.1 hslot
        rw [writeAt_writeAt_of_same hfits, writeAt_writeAt_of_same hfits]
        congr 1
        refine ih (second :: latest) hrest hlater hlatest hopened hopened_ne ?_ ?_
        · simpa [List.getLast?_cons_cons] using ha
        · simpa [List.getLast?_cons_cons] using hb
      · have hfits' := fits_of_allowed hother htarget hne
        have hslot' := slotAt_conforms hdistinct hother htarget hne
        obtain ⟨x, hx, -⟩ := exists_writeAt_opened hdistinct hlater hslot ha
          fun hne' target htarget htarget_ne =>
            writeAt_conforms hdistinct hnames later hne' hlater htarget htarget_ne
        obtain ⟨y, hy, -⟩ := exists_writeAt_opened hdistinct hlatest hslot' hb
          fun hne' target htarget htarget_ne =>
            writeAt_conforms hdistinct hnames latest hne' hlatest htarget htarget_ne
        rw [writeAt_writeAt_of_ne hstep hother hsame hfits hfits' hx hy,
          writeAt_writeAt_of_ne hother hstep (Ne.symm hsame) hfits' hfits hy hx,
          withSlot_comm hstep hother hsame hfits hfits']

/-! ### Cells and rows -/

variable {view : View} {row : Nat}

/-- Cells of columns that are apart can be written in either order. -/
theorem writeCell_comm (hdistinct : catalog.DistinctNames) (hnames : entity.names.Nodup)
    {left right : Plan} (hapart : left.Apart right) (hleft : left.Sound catalog entity)
    (hright : right.Sound catalog entity) (hleftCell : catalog.cellFault? view row left = none)
    (hrightCell : catalog.cellFault? view row right = none) {value : Value}
    (hvalue : catalog.RowConforms entity value) :
    (catalog.writeCell view row value left >>= fun written =>
        catalog.writeCell view row written right)
      = (catalog.writeCell view row value right >>= fun written =>
          catalog.writeCell view row written left) := by
  -- a blank cell writes nothing, and commutes with anything
  rcases writeCell_cases hdistinct hleftCell with hblank | ⟨a, ha, hwriteLeft⟩
  · simp only [hblank, bind, Except.bind]
    cases catalog.writeCell view row value right with
    | error _ => rfl
    | ok _ => rfl
  rcases writeCell_cases hdistinct hrightCell with hblank | ⟨b, hb, hwriteRight⟩
  · simp only [hblank, bind, Except.bind]
    cases catalog.writeCell view row value left with
    | error _ => rfl
    | ok _ => rfl
  have hlastLeft := conforms_getLast_of_sound hleft ha
  have hlastRight := conforms_getLast_of_sound hright hb
  have hne : value ≠ .null := by
    obtain ⟨fields, rfl⟩ := hvalue.exists_fields
    simp
  have hcomm := writeAt_comm hdistinct hnames left.steps right.steps hapart hleft.leads
    hright.leads hvalue hne hlastLeft hlastRight
  -- neither write can fail, alone or after the other one
  obtain ⟨x, hx, hxConforms⟩ := writeAt_conforms hdistinct hnames left.steps hapart.ne_nil
    hleft.leads hvalue hne hlastLeft
  obtain ⟨y, hy, -⟩ := writeAt_conforms hdistinct hnames right.steps hapart.symm.ne_nil
    hright.leads hvalue hne hlastRight
  have hx_ne : x ≠ .null := by
    obtain ⟨fields, rfl⟩ := RowConforms.exists_fields hxConforms
    simp
  obtain ⟨both, hboth, -⟩ := writeAt_conforms hdistinct hnames right.steps hapart.symm.ne_nil
    hright.leads hxConforms hx_ne hlastRight
  rw [hx, hy] at hcomm
  simp only [bind, Except.bind] at hcomm ⊢
  rw [hwriteLeft _ _ hx, hwriteRight _ _ hy]
  dsimp only
  rw [hwriteRight _ _ hboth, hwriteLeft _ _ (hcomm.symm.trans hboth)]

/-- **A row that nothing is wrong with, its columns in another order.**  Two orders differ by
exchanges of neighbours, and what is written so far conforms at each of them. -/
theorem foldlM_writeCell_perm (hdistinct : catalog.DistinctNames) (hnames : entity.names.Nodup)
    {plans others : List Plan} (hperm : plans.Perm others) :
    (∀ plan ∈ plans, plan.Sound catalog entity) →
    (∀ plan ∈ plans, catalog.cellFault? view row plan = none) → plans.Pairwise Plan.Apart →
    ∀ {value : Value}, catalog.RowConforms entity value →
      plans.foldlM (catalog.writeCell view row) value
        = others.foldlM (catalog.writeCell view row) value := by
  induction hperm with
  | nil => intro _ _ _ _ _; rfl
  | cons plan _ ih =>
    intro hsound hcells hapart value hvalue
    rw [List.forall_mem_cons] at hsound hcells
    rw [List.pairwise_cons] at hapart
    obtain ⟨written, hwritten, hconforms⟩ :=
      writeCell_of_sound hdistinct hnames hsound.1 hvalue hcells.1
    rw [List.foldlM_cons, List.foldlM_cons, hwritten]
    exact ih hsound.2 hcells.2 hapart.2 hconforms
  | swap first second rest =>
    intro hsound hcells hapart value hvalue
    -- neighbours are exchanged by the step lemma
    have hcomm := writeCell_comm hdistinct hnames
      ((List.pairwise_cons.mp hapart).1 first (by simp)) (hsound second (by simp))
      (hsound first (by simp)) (hcells second (by simp)) (hcells first (by simp)) hvalue
    simp only [List.foldlM_cons, ← bind_assoc]
    rw [hcomm]
  | trans hfirst _ ih ih' =>
    intro hsound hcells hapart value hvalue
    -- what the first exchanges need of the plans holds in the middle as well
    have hsound' := fun plan hplan => hsound plan (hfirst.mem_iff.mpr hplan)
    have hcells' := fun plan hplan => hcells plan (hfirst.mem_iff.mpr hplan)
    have hapart' := hfirst.pairwise hapart Step.Apart.symm
    exact (ih hsound hcells hapart hvalue).trans (ih' hsound' hcells' hapart' hvalue)

theorem toOption_readRow_perm (hdistinct : catalog.DistinctNames) (hnames : entity.names.Nodup)
    {plans others : List Plan} (hsound : ∀ plan ∈ plans, plan.Sound catalog entity)
    (hapart : plans.Pairwise Plan.Apart) (hperm : plans.Perm others) (row : Nat) :
    (catalog.readRow view entity others row).toOption
      = (catalog.readRow view entity plans row).toOption := by
  have hsound' := fun plan hplan => hsound plan (hperm.mem_iff.mpr hplan)
  have hnew := newRow_conforms hdistinct hnames
  by_cases hcells : ∀ plan ∈ plans, catalog.cellFault? view row plan = none
  · rw [readRow, readRow,
      foldlM_writeCell_perm hdistinct hnames hperm hsound hcells hapart hnew]
  · -- some cell is at fault, so neither order gets to the end
    have hcells' : ¬ ∀ plan ∈ others, catalog.cellFault? view row plan = none :=
      fun h => hcells fun plan hplan => h plan (hperm.mem_iff.mp hplan)
    obtain ⟨fault, hfault⟩ := exists_rowFault? hcells
    obtain ⟨fault', hfault'⟩ := exists_rowFault? hcells'
    rw [readRow_of_rowFault? hdistinct hnames hsound hfault,
      readRow_of_rowFault? hdistinct hnames hsound' hfault']
    rfl

/-- **The order of columns that are apart does not matter.**  For every catalog whose shapes
have distinct names and every list of plans made from a row of paths, none of which is equal
to or the beginning of another: with the plans in any other order, the same lists of rows are
read, and with the same values. -/
theorem readRows_perm {dialect : Dialect} {paths : View} {pathRow : Nat} {plans others : List Plan}
    (hdistinct : catalog.DistinctNames) (hentity : catalog.entity = some entity)
    (hplans : Plan.ofRow dialect catalog entity paths pathRow = .ok plans)
    (hapart : plans.Pairwise Plan.Apart) (hperm : plans.Perm others)
    (view : View) (keys : List String) (rows : List Nat) (values : List Value) :
    catalog.readRows view entity others keys rows [] = .ok values ↔
      catalog.readRows view entity plans keys rows [] = .ok values := by
  have hnames := hdistinct.1 entity hentity
  have hsound := Plan.sound_of_ofRow hplans
  have hrows : (catalog.readRows view entity others keys (rows.map id) []).toOption
      = (catalog.readRows view entity plans keys rows []).toOption :=
    toOption_readRows_congr rows
      (fun row _ => toOption_readRow_perm hdistinct hnames hsound hapart hperm row) rfl
  rw [List.map_id] at hrows
  rw [← toOption_eq_some_iff, ← toOption_eq_some_iff, hrows]

end Catalog

namespace Trees

/-- Nodes spread over columns that share a list, a record in it and a list in that. -/
def spreadView : View where
  grid := ⟨#[
    #[some "Id", some "Nodes[1].Next.Marks[1]", some "Root.Kind", some "Nodes[0].Kind",
      some "Nodes[1].Next.Marks[0]", some "Root.Next.Kind"],
    #[some "1", some "7", some "Leaf", some "Leaf", some "8", some "Leaf"],
    #[some "2", some "9", some "0", none, none, some "Leaf"]]⟩
  top := 0
  left := 0
  height := 3
  width := 6

def spreadPlans : List Plan := (Plan.ofRow default catalog shape spreadView 0).toOption.getD []

/-- The rows are read from the last column to the first as from the first to the last. -/
theorem readRows_perm_spread : spreadPlans.length = 6 ∧ spreadPlans.Pairwise Plan.Apart ∧
    ∃ values, catalog.readRows spreadView shape spreadPlans ["Id"] [1, 2] [] = .ok values ∧
      catalog.readRows spreadView shape spreadPlans.reverse ["Id"] [1, 2] [] = .ok values := by
  have hapart : spreadPlans.Pairwise Plan.Apart := by decide +kernel
  obtain ⟨values, hvalues⟩ : ∃ values,
      catalog.readRows spreadView shape spreadPlans ["Id"] [1, 2] [] = .ok values :=
    exists_ok_of_isOk (by decide +kernel)
  exact ⟨by decide +kernel, hapart, values, hvalues,
    (Catalog.readRows_perm distinctNames rfl (rfl : Plan.ofRow default catalog shape spreadView 0
      = .ok spreadPlans) hapart (List.reverse_perm _).symm spreadView ["Id"] [1, 2]
        values).mpr hvalues⟩

end Trees
end TypedSheets

import TypedSheets.Proofs.Paths

/-!
# Writing to a row

A cell is written at the end of the steps of its column.  On the way records are
created and lists are filled up, so that each step finds the container it goes into;
what comes out conforms again.  The invariant is that the container reached so far is
there and conforms to its type without `?` and references.

## Main results

* `Catalog.opened_conforms` — a slot that further steps go into is a container.
* `Catalog.writeAt_field`, `Catalog.writeAt_index` — one step.
* `Catalog.writeAt_conforms` — **writing along allowed steps succeeds and keeps a row
  conforming.**
* `Catalog.writeCell_of_cellFault?`, `Catalog.writeCell_of_sound` — **a cell is refused
  for what is wrong with it, and written otherwise.**
-/

namespace TypedSheets
namespace Catalog

variable {catalog : Catalog} {entity : Shape} {value : Value}

/-- What a path has come to conforms: the row at its start, a slot of a type later on. -/
def Holds (catalog : Catalog) (entity : Shape) : Option ResolvedType → Value → Prop
  | none, target => catalog.RowConforms entity target
  | some type, target => catalog.Conforms type target

/-! ### Opening a slot -/

theorem opened_of_ne_null {type : ResolvedType} {steps : List Step} {slot : Value}
    (h : slot ≠ .null) : catalog.opened type steps slot = slot := by
  cases slot with
  | null => exact absurd rfl h
  | _ => simp [opened, Value.isNull]

/-- A step is only allowed into what starts out as a container. -/
theorem zero_ne_null_of_allowed {type : ResolvedType} {step : Step}
    (h : Step.Allowed catalog entity (some type) step) : catalog.zero type ≠ .null := by
  cases h with
  | field hshape _ => simp [zero, hshape]
  | index _ => simp [zero, blank]

/-- **A slot that further steps go into is a container**, created if it was not there. -/
theorem opened_conforms (hdistinct : catalog.DistinctNames) {type : ResolvedType}
    {step : Step} (rest : List Step) {slot : Value}
    (hstep : Step.Allowed catalog entity (some type.bare) step)
    (hslot : catalog.Conforms type slot) :
    catalog.Conforms type.bare (catalog.opened type (step :: rest) slot) ∧
      catalog.opened type (step :: rest) slot ≠ .null := by
  cases slot with
  | null => exact ⟨zero_conforms hdistinct _, zero_ne_null_of_allowed hstep⟩
  | _ =>
    rw [opened_of_ne_null (by simp)]
    exact ⟨hslot.bare_of_ne_null (by simp), by simp⟩

/-! ### One step -/

/-- One step into a field, given that the rest can be written to any conforming slot. -/
theorem writeAt_field {shape : Shape} (hnames : shape.names.Nodup) {found : Field}
    (hfound : found ∈ shape.fields) {rest : List Step} {fields : List (String × Value)}
    (hfields : catalog.RowConforms shape (.record fields))
    (hrest : ∀ slot, catalog.Conforms found.type slot →
      ∃ written, catalog.writeAt rest value (catalog.opened found.type rest slot) = .ok written ∧
        catalog.Conforms found.type written) :
    ∃ written, catalog.writeAt (.field found.emitted found.type :: rest) value (.record fields)
        = .ok (.record written) ∧ catalog.RowConforms shape (.record written) := by
  obtain ⟨slot, hget, hslot⟩ := hfields.exists_get? hfound
  obtain ⟨written, hwritten, hconforms⟩ := hrest slot hslot
  refine ⟨OrderedMap.insert fields found.emitted written, ?_,
    hfields.insert hnames hfound hconforms⟩
  simp only [writeAt, hget, Option.getD_some, hwritten]
  rfl

theorem padded_conforms (hdistinct : catalog.DistinctNames) {element : ResolvedType}
    {items : List Value} (hitems : ∀ item ∈ items, catalog.Conforms element item) (length : Nat) :
    ∀ item ∈ padded length (catalog.filler element) items, catalog.Conforms element item := by
  intro item hitem
  rcases List.mem_append.mp hitem with h | h
  · exact hitems item h
  · rw [List.eq_of_mem_replicate h]
    exact filler_conforms hdistinct element

theorem length_padded (length : Nat) (filler : Value) (items : List Value) :
    (padded length filler items).length = max items.length length := by
  rw [padded, List.length_append, List.length_replicate]
  omega

theorem padded_eq_self {length : Nat} {filler : Value} {items : List Value}
    (h : length ≤ items.length) : padded length filler items = items := by
  rw [padded, Nat.sub_eq_zero_of_le h]
  simp

/-- One step into an item, given that the rest can be written to any conforming slot. -/
theorem writeAt_index (hdistinct : catalog.DistinctNames) {element : ResolvedType} {i : Nat}
    {rest : List Step} {items : List Value}
    (hitems : ∀ item ∈ items, catalog.Conforms element item)
    (hrest : ∀ slot, catalog.Conforms element slot →
      ∃ written, catalog.writeAt rest value (catalog.opened element rest slot) = .ok written ∧
        catalog.Conforms element written) :
    ∃ written, catalog.writeAt (.index i element :: rest) value (.list items)
        = .ok (.list written) ∧ ∀ item ∈ written, catalog.Conforms element item := by
  -- the list is filled up to the item first, with items of its type
  have hpadded := padded_conforms hdistinct hitems (i + 1)
  have hlt : i < (padded (i + 1) (catalog.filler element) items).length := by
    rw [length_padded]; omega
  obtain ⟨slot, hslot⟩ :
      ∃ slot, (padded (i + 1) (catalog.filler element) items)[i]? = some slot :=
    ⟨_, List.getElem?_eq_getElem hlt⟩
  obtain ⟨written, hwritten, hconforms⟩ := hrest slot (hpadded slot (List.mem_of_getElem? hslot))
  refine ⟨(padded (i + 1) (catalog.filler element) items).set i written, ?_, ?_⟩
  · simp only [writeAt, List.getD_eq_getElem?_getD, hslot, Option.getD_some, hwritten]
    rfl
  · intro item hitem
    rcases List.mem_or_eq_of_mem_set hitem with h | rfl
    · exact hpadded item h
    · exact hconforms

/-- What was written to below the top is a container. -/
theorem writeAt_ne_null {steps : List Step} {target written : Value} (hsteps : steps ≠ [])
    (h : catalog.writeAt steps value target = .ok written) : written ≠ .null := by
  cases steps with
  | nil => exact absurd rfl hsteps
  | cons step rest =>
    cases step with
    | field name type =>
      cases target with
      | record fields =>
        rw [writeAt] at h
        obtain ⟨slot, -, h⟩ := bind_eq_ok.mp h
        cases h
        simp
      | _ => cases h
    | index i type =>
      cases target with
      | list items =>
        rw [writeAt] at h
        obtain ⟨slot, -, h⟩ := bind_eq_ok.mp h
        cases h
        simp
      | _ => cases h

/-! ### All steps -/

/-- The steps after a first one can be written to any slot of the type it reaches, given that
they can be written to what the slot is opened to. -/
theorem exists_writeAt_opened (hdistinct : catalog.DistinctNames) {step : Step} {rest : List Step}
    {slot : Value} (hlater : Step.Leads catalog entity (some step.type.bare) rest)
    (hslot : catalog.Conforms step.type slot)
    (hvalue : ∀ last, (step :: rest).getLast? = some last → catalog.Conforms last.type value)
    (hrest : rest ≠ [] → ∀ target, catalog.Conforms step.type.bare target → target ≠ .null →
      (∀ last, rest.getLast? = some last → catalog.Conforms last.type value) →
      ∃ written, catalog.writeAt rest value target = .ok written ∧
        catalog.Conforms step.type.bare written) :
    ∃ written, catalog.writeAt rest value (catalog.opened step.type rest slot) = .ok written ∧
      catalog.Conforms step.type written := by
  cases rest with
  | nil => exact ⟨value, rfl, hvalue step rfl⟩
  | cons next later =>
    -- there are steps left, so the slot is opened: it is no longer null
    obtain ⟨hopened, hopened_ne⟩ := opened_conforms hdistinct later hlater.1 hslot
    obtain ⟨written, hwritten, hconforms⟩ := hrest (by simp) _ hopened hopened_ne
      (by simpa [List.getLast?_cons_cons] using hvalue)
    exact ⟨written, hwritten, Conforms.of_bare hconforms⟩

/-- **Writing along allowed steps succeeds and keeps a row conforming.**  The induction is
over the steps; each of them is taken from a container that is there. -/
theorem writeAt_conforms (hdistinct : catalog.DistinctNames) (hnames : entity.names.Nodup) :
    ∀ (steps : List Step) {current : Option ResolvedType} {target : Value}, steps ≠ [] →
      Step.Leads catalog entity current steps → catalog.Holds entity current target →
      target ≠ .null →
      (∀ last, steps.getLast? = some last → catalog.Conforms last.type value) →
      ∃ written, catalog.writeAt steps value target = .ok written ∧
        catalog.Holds entity current written := by
  intro steps
  induction steps with
  | nil => intro _ _ h; exact absurd rfl h
  | cons step rest ih =>
    intro current target _ hleads htarget hne hvalue
    obtain ⟨hstep, hlater⟩ := hleads
    have hrest : ∀ slot, catalog.Conforms step.type slot →
        ∃ written, catalog.writeAt rest value (catalog.opened step.type rest slot) = .ok written ∧
          catalog.Conforms step.type written := by
      intro slot hslot
      exact exists_writeAt_opened hdistinct hlater hslot hvalue
        fun hne' target htarget htarget_ne => ih hne' hlater htarget htarget_ne
    cases hstep with
    | row hfound =>
      obtain ⟨fields, rfl⟩ := RowConforms.exists_fields htarget
      obtain ⟨written, hwritten, hconforms⟩ := writeAt_field hnames hfound htarget hrest
      exact ⟨_, hwritten, hconforms⟩
    | field hshape hfound =>
      rcases Conforms.record_cases htarget with rfl | ⟨shape', hshape', hrow⟩
      · -- the containers on the way were opened, so none of them is null
        exact absurd rfl hne
      obtain rfl := Option.some.inj (hshape.symm.trans hshape')
      obtain ⟨fields, rfl⟩ := hrow.exists_fields
      obtain ⟨written, hwritten, hconforms⟩ :=
        writeAt_field (hdistinct.of_record hshape) hfound hrow hrest
      exact ⟨_, hwritten, hconforms.conforms hshape⟩
    | index _ =>
      obtain ⟨items, rfl, hitems⟩ := Conforms.list_cases htarget
      obtain ⟨written, hwritten, hconforms⟩ := writeAt_index hdistinct hitems hrest
      exact ⟨_, hwritten, .list hconforms⟩

/-! ### Cells -/

/-- What is wrong with the cell of a column in some row, seen without the row's value:
it is blank where a value is needed, or its text is no value of its type. -/
def cellFault? (catalog : Catalog) (view : View) (row : Nat) (plan : Plan) : Option Fault :=
  match view.text? row plan.col with
  | none =>
    if plan.mayBeBlank then none
    else some (.missingValue plan.path (view.place row plan.col))
  | some text =>
    match catalog.ofText plan.leaf text with
    | .ok _ => none
    | .error e => some (.mismatch e (view.place row plan.col))

theorem writeCell_of_cellFault? {view : View} {row : Nat} {plan : Plan} {fault : Fault}
    (h : catalog.cellFault? view row plan = some fault) :
    catalog.writeCell view row value plan = .error fault := by
  cases htext : view.text? row plan.col with
  | none =>
    simp only [cellFault?, htext] at h
    simp only [writeCell, htext]
    split at h
    · cases h
    · next hneeded =>
      rw [if_neg hneeded, Option.some.inj h]
  | some text =>
    cases hread : catalog.ofText plan.leaf text with
    | ok converted =>
      simp only [cellFault?, htext, hread] at h
      cases h
    | error e =>
      simp only [cellFault?, htext, hread] at h
      simp only [writeCell, htext, hread, Option.some.inj h]

/-- A cell that nothing is wrong with is left blank, or writes a value of its type. -/
theorem writeCell_cases (hdistinct : catalog.DistinctNames) {view : View} {row : Nat} {plan : Plan}
    (h : catalog.cellFault? view row plan = none) :
    (∀ value, catalog.writeCell view row value plan = .ok value) ∨
      ∃ converted, catalog.Conforms plan.leaf converted ∧ ∀ value written,
        catalog.writeAt plan.steps converted value = .ok written →
          catalog.writeCell view row value plan = .ok written := by
  rw [cellFault?] at h
  split at h
  · next htext =>
    split at h
    · next hmay =>
      refine Or.inl fun value => ?_
      simp only [writeCell, htext, hmay, ite_true]
    · cases h
  · next text htext =>
    split at h
    · next converted hread =>
      refine Or.inr ⟨converted, ofText_conforms hdistinct hread, ?_⟩
      intro value written hwritten
      simp only [writeCell, htext, hread, hwritten]
    · cases h

/-- A cell that is written is blank and leaves the row as it is, or it writes the value of its
text. -/
theorem cases_of_writeCell {view : View} {row : Nat} {plan : Plan} {target written : Value}
    (h : catalog.writeCell view row target plan = .ok written) :
    view.text? row plan.col = none ∧ written = target ∨
      ∃ text converted, view.text? row plan.col = some text ∧
        catalog.ofText plan.leaf text = .ok converted ∧
        catalog.writeAt plan.steps converted target = .ok written := by
  rw [writeCell] at h
  split at h
  · next htext =>
    split at h
    · cases h
      exact Or.inl ⟨htext, rfl⟩
    · cases h
  · next text htext =>
    split at h
    · cases h
    · next converted hconverted =>
      split at h
      · next hwrite =>
        cases h
        exact Or.inr ⟨text, converted, htext, hconverted, hwrite⟩
      · cases h

theorem conforms_getLast_of_sound {plan : Plan} (hplan : plan.Sound catalog entity)
    (h : catalog.Conforms plan.leaf value) :
    ∀ last, plan.steps.getLast? = some last → catalog.Conforms last.type value := by
  obtain ⟨found, hfound, hleaf⟩ := hplan.leaf
  intro last hlast
  obtain rfl := Option.some.inj (hfound.symm.trans hlast)
  rw [hleaf]
  exact h

/-- **A cell of a sound column that has nothing wrong with it is written**, whatever
conforming row it is written to: no step misses its container. -/
theorem writeCell_of_sound (hdistinct : catalog.DistinctNames) (hnames : entity.names.Nodup)
    {view : View} {row : Nat} {plan : Plan} (hplan : plan.Sound catalog entity)
    (hvalue : catalog.RowConforms entity value)
    (h : catalog.cellFault? view row plan = none) :
    ∃ written, catalog.writeCell view row value plan = .ok written ∧
      catalog.RowConforms entity written := by
  rcases writeCell_cases hdistinct h with hblank | ⟨converted, hconverted, hwrite⟩
  · exact ⟨value, hblank value, hvalue⟩
  · have hne : value ≠ .null := by
      obtain ⟨fields, rfl⟩ := hvalue.exists_fields
      simp
    obtain ⟨written, hwritten, hconforms⟩ := writeAt_conforms hdistinct hnames plan.steps
      hplan.steps_ne_nil hplan.leads hvalue hne (conforms_getLast_of_sound hplan hconverted)
    exact ⟨written, hwrite value written hwritten, hconforms⟩

end Catalog
end TypedSheets

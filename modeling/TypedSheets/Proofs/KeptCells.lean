import TypedSheets.Proofs.ColumnOrder

/-!
# No cell of a row is lost

A row is written cell by cell.  On its way to its slot a cell creates records, fills up lists and
goes through what the cells before it have written.  Still, at the end every cell is found where
its path leads, and a field that no cell leads to holds what a new row has there.

Both are one statement about a single write: it puts its value at the end of its own path, and
what can be reached along any path that is apart from it is reached as before.  A container that
is opened was not there, so nothing could be reached through it; and a list that is filled up
keeps the items it has.  The types play no part in this, as long as the write succeeds.

## Main definitions

* `Value.slot?`, `Value.follow?` — what a slot, or slots one inside the other, hold.
* `Plan.Compiled` — a column that comes from a row of paths.

## Main results

* `Catalog.exists_of_writeAt_cons` — what one step of a write does to the slots of its target.
* `Catalog.follow?_writeAt` — **a write is read back.**
* `Catalog.follow?_writeAt_of_apart` — **a write leaves other paths alone.**
* `Catalog.readRows_keepsCells` — **no cell is lost and nothing else is touched.**
-/

namespace TypedSheets

namespace Value

/-- What a slot of a value holds. -/
def slot? (value : Value) : Slot → Option Value
  | .field name => value.get? name
  | .index i => value.items?.bind fun items => items[i]?

/-- What slots hold, one inside the other. -/
def follow? (value : Value) (slots : List Slot) : Option Value :=
  slots.foldlM (fun value slot => value.slot? slot) value

@[simp] theorem follow?_nil (value : Value) : value.follow? [] = some value := rfl

@[simp] theorem follow?_cons (value : Value) (slot : Slot) (slots : List Slot) :
    value.follow? (slot :: slots) = (value.slot? slot).bind fun held => held.follow? slots := rfl

/-- Nothing can be reached through a value that is absent. -/
theorem ne_null_of_follow? {value held : Value} {slots : List Slot} (hslots : slots ≠ [])
    (h : value.follow? slots = some held) : value ≠ .null := by
  rintro rfl
  cases slots with
  | nil => exact hslots rfl
  | cons slot slots =>
    cases slot with
    | field name => cases h
    | index i => cases h

end Value

namespace Catalog

variable {catalog : Catalog} {value : Value}

/-! ### One write -/

/-- **What one step of a write does to the slots of its target**: the rest is written to what its
own slot holds, or to something new; all other slots that hold something hold it afterwards. -/
theorem exists_of_writeAt_cons {step : Step} {rest : List Step} {target written : Value}
    (h : catalog.writeAt (step :: rest) value target = .ok written) :
    ∃ fresh inner, catalog.writeAt rest value
        (catalog.opened step.type rest ((target.slot? step.slot).getD fresh)) = .ok inner ∧
      written.slot? step.slot = some inner ∧
      ∀ slot held, slot ≠ step.slot → target.slot? slot = some held →
        written.slot? slot = some held := by
  cases step with
  | field name type =>
    cases target with
    | record fields =>
      rw [writeAt] at h
      obtain ⟨inner, hinner, h⟩ := bind_eq_ok.mp h
      cases h
      refine ⟨.null, inner, hinner, OrderedMap.get?_insert_self _ _ _, ?_⟩
      intro slot held hne hheld
      cases slot with
      | field other =>
        have hname : name ≠ other := fun heq => hne (by rw [heq]; rfl)
        exact (OrderedMap.get?_insert_of_ne fields inner hname).trans hheld
      | index i => cases hheld
    | _ => cases h
  | index i type =>
    cases target with
    | list items =>
      rw [writeAt] at h
      obtain ⟨inner, hinner, h⟩ := bind_eq_ok.mp h
      cases h
      have hlength : i < (padded (i + 1) (catalog.filler type) items).length := by
        rw [length_padded]
        omega
      have hslot : (padded (i + 1) (catalog.filler type) items).getD i .null
          = items[i]?.getD (catalog.filler type) := by
        rw [List.getD_eq_getElem?_getD, getElem?_padded _ _ (Nat.lt_succ_self i), Option.getD_some]
      rw [hslot] at hinner
      refine ⟨catalog.filler type, inner, hinner, List.getElem?_set_self hlength, ?_⟩
      intro slot held hne hheld
      cases slot with
      | field name => cases hheld
      | index j =>
        have hij : i ≠ j := fun heq => hne (by rw [heq]; rfl)
        -- filling up adds items at the end only
        have hj : j < items.length := (List.getElem?_eq_some_iff.mp hheld).1
        have hpadded : (padded (i + 1) (catalog.filler type) items)[j]? = some held := by
          rw [padded, List.getElem?_append_left hj]
          exact hheld
        exact (List.getElem?_set_ne hij).trans hpadded
    | _ => cases h

/-- **A write is read back.** -/
theorem follow?_writeAt : ∀ {steps : List Step} {target written : Value},
    catalog.writeAt steps value target = .ok written →
      written.follow? (steps.map Step.slot) = some value := by
  intro steps
  induction steps with
  | nil =>
    intro target written h
    cases h
    rfl
  | cons step rest ih =>
    intro target written h
    obtain ⟨fresh, inner, hinner, hslot, -⟩ := exists_of_writeAt_cons h
    rw [List.map_cons, Value.follow?_cons, hslot, Option.bind_some]
    exact ih hinner

/-- **A write leaves other paths alone.**  As long as the other path goes through the same slots,
it goes on in what the write goes on in; at the first different slot, nothing changes. -/
theorem follow?_writeAt_of_apart {held : Value} : ∀ {steps : List Step} {path : List Slot}
    {target written : Value}, ¬ path <+: steps.map Step.slot → ¬ steps.map Step.slot <+: path →
      catalog.writeAt steps value target = .ok written → target.follow? path = some held →
      written.follow? path = some held := by
  intro steps
  induction steps with
  | nil =>
    intro path target written _ hsteps
    exact absurd List.nil_prefix hsteps
  | cons step rest ih =>
    intro path target written hpath hsteps h hheld
    obtain ⟨fresh, inner, hinner, hslot, hother⟩ := exists_of_writeAt_cons h
    cases path with
    | nil => exact absurd List.nil_prefix hpath
    | cons slot slots =>
      rw [Value.follow?_cons] at hheld ⊢
      obtain ⟨next, hnext, hfollow⟩ := Option.bind_eq_some_iff.mp hheld
      by_cases hsame : slot = step.slot
      · subst hsame
        rw [List.map_cons, List.cons_prefix_cons] at hpath hsteps
        have hslots : ¬ slots <+: rest.map Step.slot := fun hle => hpath ⟨rfl, hle⟩
        have hrest : ¬ rest.map Step.slot <+: slots := fun hle => hsteps ⟨rfl, hle⟩
        -- the other path goes on, so its container is there and is not opened anew
        have hne : next ≠ .null := by
          refine Value.ne_null_of_follow? ?_ hfollow
          rintro rfl
          exact hslots List.nil_prefix
        rw [hnext, Option.getD_some, opened_of_ne_null hne] at hinner
        rw [hslot, Option.bind_some]
        exact ih hslots hrest hinner hfollow
      · rw [hother slot next hsame hnext, Option.bind_some]
        exact hfollow

/-! ### The cells of a row -/

variable {view : View} {row : Nat}

/-- What is reached along a path that is apart from all cells with text is kept by all of them. -/
theorem follow?_foldlM_of_apart {path : List Slot} {held : Value} : ∀ {plans : List Plan}
    {target written : Value},
    (∀ plan ∈ plans, view.text? row plan.col ≠ none →
      ¬ path <+: plan.steps.map Step.slot ∧ ¬ plan.steps.map Step.slot <+: path) →
    plans.foldlM (catalog.writeCell view row) target = .ok written →
    target.follow? path = some held → written.follow? path = some held := by
  intro plans
  induction plans with
  | nil =>
    intro target written _ h hheld
    cases h
    exact hheld
  | cons plan plans ih =>
    intro target written hapart h hheld
    rw [List.forall_mem_cons] at hapart
    rw [List.foldlM_cons] at h
    obtain ⟨next, hnext, h⟩ := bind_eq_ok.mp h
    refine ih hapart.2 h ?_
    -- a blank cell changes nothing, one with text is written elsewhere
    rcases cases_of_writeCell hnext with ⟨-, rfl⟩ | ⟨text, converted, htext, -, hwrite⟩
    · exact hheld
    · obtain ⟨hpath, hsteps⟩ := hapart.1 (by simp [htext])
      exact follow?_writeAt_of_apart hpath hsteps hwrite hheld

/-- Each cell with text is found where its path leads, if the paths are apart.  The cell is
written by its own column and kept by the columns after it. -/
theorem exists_follow?_foldlM : ∀ {plans : List Plan} {target written : Value},
    plans.Pairwise Plan.Apart → plans.foldlM (catalog.writeCell view row) target = .ok written →
    ∀ plan ∈ plans, ∀ text, view.text? row plan.col = some text →
      ∃ converted, catalog.ofText plan.leaf text = .ok converted ∧
        written.follow? (plan.steps.map Step.slot) = some converted := by
  intro plans
  induction plans with
  | nil => intro _ _ _ _ plan hplan; cases hplan
  | cons first plans ih =>
    intro target written hapart h plan hplan text htext
    rw [List.pairwise_cons] at hapart
    rw [List.foldlM_cons] at h
    obtain ⟨next, hnext, hrest⟩ := bind_eq_ok.mp h
    -- the cell of the first column is written now, the others later
    rcases List.mem_cons.mp hplan with rfl | hplan
    · rcases cases_of_writeCell hnext with ⟨hblank, -⟩ | ⟨text', converted, htext', hread, hwrite⟩
      · rw [htext] at hblank
        cases hblank
      · obtain rfl := Option.some.inj (htext.symm.trans htext')
        refine ⟨converted, hread, ?_⟩
        exact follow?_foldlM_of_apart (fun later hlater _ => hapart.1 later hlater) hrest
          (follow?_writeAt hwrite)
    · exact ih hapart.2 hrest plan hplan text htext

end Catalog

/-! ### Compiled columns -/

/-- A column that comes from a row of paths. -/
def Plan.Compiled (catalog : Catalog) (entity : Shape) (plan : Plan) : Prop :=
  ∃ dialect view pathRow plans,
    Plan.ofRow dialect catalog entity view pathRow = .ok plans ∧ plan ∈ plans

theorem Plan.Compiled.sound {catalog : Catalog} {entity : Shape} {plan : Plan}
    (h : plan.Compiled catalog entity) : plan.Sound catalog entity := by
  obtain ⟨dialect, view, pathRow, plans, hplans, hplan⟩ := h
  exact sound_of_ofRow hplans plan hplan

namespace Catalog

variable {catalog : Catalog} {entity : Shape}

/-- **No cell is lost and nothing else is touched.**  For every catalog whose shapes have distinct
names and every list of compiled columns, no path of which is equal to or the beginning of
another's: in each row that is read, the steps of every column whose cell is not blank lead to
the value of its text, and every field that is not the first step of such a column holds what a
new row holds there. -/
theorem readRows_keepsCells {plans : List Plan} (hdistinct : catalog.DistinctNames)
    (hentity : catalog.entity = some entity)
    (hplans : ∀ plan ∈ plans, plan.Compiled catalog entity)
    (hapart : plans.Pairwise Plan.Apart) {view : View} {keys : List String} {rows : List Nat}
    {values : List Value} (h : catalog.readRows view entity plans keys rows [] = .ok values) :
    List.Forall₂ (fun row value =>
      (∀ plan ∈ plans, ∀ text, view.text? row plan.col = some text →
        ∃ converted, catalog.ofText plan.leaf text = .ok converted ∧
          value.follow? (plan.steps.map Step.slot) = some converted) ∧
      ∀ field ∈ entity.fields,
        (∀ plan ∈ plans, view.text? row plan.col ≠ none →
          (plan.steps.map Step.slot).head? ≠ some (.field field.emitted)) →
        (catalog.newRow entity).get? field.emitted = some (catalog.rowField field.type) ∧
          value.get? field.emitted = some (catalog.rowField field.type)) rows values := by
  have hnames := hdistinct.1 entity hentity
  have hsound := fun plan hplan => (hplans plan hplan).sound
  obtain ⟨-, hread⟩ := accepted_of_readRows hdistinct hnames hsound h
  refine hread.imp fun row value hvalue => ⟨exists_follow?_foldlM hapart hvalue, ?_⟩
  intro field hfield hfirst
  have hnew : (catalog.newRow entity).get? field.emitted = some (catalog.rowField field.type) :=
    Shape.get?_ofList hnames catalog.rowField hfield
  refine ⟨hnew, ?_⟩
  -- the path to the field alone is apart from all columns that start elsewhere
  have hkept : value.follow? [.field field.emitted] = some (catalog.rowField field.type) := by
    refine follow?_foldlM_of_apart ?_ hvalue (by simpa [Value.slot?] using hnew)
    intro plan hplan htext
    have hslot := hfirst plan hplan htext
    obtain ⟨step, rest, hsteps⟩ := List.exists_cons_of_ne_nil (hsound plan hplan).steps_ne_nil
    rw [hsteps] at hslot ⊢
    have hne : step.slot ≠ .field field.emitted := fun heq => hslot (by rw [← heq]; rfl)
    simp [List.cons_prefix_cons, hne, Ne.symm hne]
  simpa [Value.slot?] using hkept

end Catalog

namespace Trees

/-- A column of marks, of the node after the second one. -/
def markPlan (col i : Nat) (path : String) : Plan where
  col := col
  path := path
  steps := [.field "Nodes" (.list (.record "Node")), .index 1 (.record "Node"),
    .field "Next" (.record "Node"), .field "Marks" (.nullable (.list (.scalar .ulong))),
    .index i (.scalar .ulong)]
  leaf := .scalar .ulong

/-- In the first row, cells that share a list, a record in it and a list in that are both found,
and the reference, which has no column, is absent as in a new row. -/
theorem readRows_keepsCells_spread : spreadPlans.Pairwise Plan.Apart ∧ ∃ value later,
    catalog.readRows spreadView shape spreadPlans ["Id"] [1, 2] [] = .ok [value, later] ∧
      (∃ mark, catalog.ofText (.scalar .ulong) "7" = .ok mark ∧
        value.follow? [.field "Nodes", .index 1, .field "Next", .field "Marks", .index 1]
          = some mark) ∧
      (∃ mark, catalog.ofText (.scalar .ulong) "8" = .ok mark ∧
        value.follow? [.field "Nodes", .index 1, .field "Next", .field "Marks", .index 0]
          = some mark) ∧
      value.get? "ParentId" = some .null := by
  have hapart : spreadPlans.Pairwise Plan.Apart := by decide +kernel
  have hcompiled : ∀ plan ∈ spreadPlans, plan.Compiled catalog shape :=
    fun plan hplan => ⟨default, spreadView, 0, spreadPlans, rfl, hplan⟩
  obtain ⟨values, hvalues⟩ : ∃ values,
      catalog.readRows spreadView shape spreadPlans ["Id"] [1, 2] [] = .ok values :=
    exists_ok_of_isOk (by decide +kernel)
  have hkept := Catalog.readRows_keepsCells distinctNames rfl hcompiled hapart hvalues
  cases hkept with
  | @cons _ value _ _ hfirst hlater =>
    cases hlater with
    | @cons _ later _ _ _ hnone =>
      cases hnone
      obtain ⟨hcells, hfields⟩ := hfirst
      have hparent : ∀ plan ∈ spreadPlans,
          (plan.steps.map Step.slot).head? ≠ some (.field "ParentId") := by decide +kernel
      refine ⟨hapart, value, later, hvalues, ?_, ?_, ?_⟩
      · exact hcells (markPlan 1 1 "Nodes[1].Next.Marks[1]") (by decide +kernel) "7" rfl
      · exact hcells (markPlan 4 0 "Nodes[1].Next.Marks[0]") (by decide +kernel) "8" rfl
      · exact (hfields ⟨"ParentId", "ParentId", .reference (.nullable (.scalar .int)) "Tree", false⟩
          (by decide) fun plan hplan _ => hparent plan hplan).2

end Trees
end TypedSheets

import TypedSheets.Proofs.Literals

/-!
# Paths follow types

The path above a data column is turned into steps against the types of the sheet.
Here is what those steps promise to whoever takes them: each goes from a row or a
record into one of its fields, or from a list into an item, and carries the type of
the slot it reaches.

## Main definitions

* `Step.Allowed` — a step that the types allow.
* `Step.Leads` — steps that the types allow one after another.
* `Plan.Sound` — a column whose steps lead to a slot of the type it is read against.

## Main results

* `Plan.sound_of_ofRow` — **every plan of a row of paths is sound.**
-/

namespace TypedSheets

namespace Step

/-- A step that the types allow from where a path has come to; the start of a path is
the row itself. -/
inductive Allowed (catalog : Catalog) (entity : Shape) : Option ResolvedType → Step → Prop
  /-- From the row into one of its fields. -/
  | row {found : Field} (h : found ∈ entity.fields) :
      Allowed catalog entity none (.field found.emitted found.type)
  /-- From a record into one of its fields. -/
  | field {name : String} {shape : Shape} {found : Field}
      (hshape : catalog.record? name = some shape) (h : found ∈ shape.fields) :
      Allowed catalog entity (some (.record name)) (.field found.emitted found.type)
  /-- From a list into an item. -/
  | index {element : ResolvedType} {i : Nat} (h : i ≤ greatestIndex) :
      Allowed catalog entity (some (.list element)) (.index i element)

/-- Steps that the types allow one after another. -/
def Leads (catalog : Catalog) (entity : Shape) : Option ResolvedType → List Step → Prop
  | _, [] => True
  | current, step :: rest =>
    Allowed catalog entity current step ∧ Leads catalog entity (some step.type.bare) rest

variable {catalog : Catalog} {entity : Shape}

theorem allowed_of_ofIndex {i : Nat} {current : Option ResolvedType} {step : Step}
    (h : ofIndex i current = .ok step) : Allowed catalog entity current step := by
  rw [ofIndex] at h
  split at h
  · cases h
  · next element helement =>
    split at h
    · cases h
    · next hle =>
      cases h
      obtain ⟨type, rfl, htype⟩ := Option.bind_eq_some_iff.mp helement
      cases type with
      | list inner =>
        cases htype
        exact .index (Nat.le_of_not_lt hle)
      | _ => cases htype

/-- A segment becomes a step that the types allow. -/
theorem allowed_of_ofSegment {current : Option ResolvedType} {segment : String} {step : Step}
    (h : ofSegment catalog entity current segment = .ok step) :
    Allowed catalog entity current step := by
  rw [ofSegment] at h
  split at h
  · exact allowed_of_ofIndex h
  · obtain ⟨shape, hshape, h⟩ := bind_eq_ok.mp h
    split at h
    · next found hfound =>
      cases h
      have hmem := Catalog.field?_mem hfound
      -- the shape is that of the row at the start, that of a record later on
      rw [shapeAt.eq_def] at hshape
      split at hshape
      · cases hshape; exact .row hmem
      · split at hshape
        · next hrecord => cases hshape; exact .field hrecord hmem
        · cases hshape
      · cases hshape
    · cases h

theorem leads_of_ofSegments : ∀ {segments : List String} {current : Option ResolvedType}
    {steps : List Step}, ofSegments catalog entity current segments = .ok steps →
      Leads catalog entity current steps := by
  intro segments
  induction segments with
  | nil =>
    intro current steps h
    rw [ofSegments] at h
    cases h
    trivial
  | cons segment rest ih =>
    intro current steps h
    rw [ofSegments] at h
    obtain ⟨step, hstep, h⟩ := bind_eq_ok.mp h
    obtain ⟨later, hlater, h⟩ := bind_eq_ok.mp h
    cases h
    exact ⟨allowed_of_ofSegment hstep, ih hlater⟩

end Step

namespace Plan

/-- A column whose steps the types allow and lead to a slot of the type it is read
against. -/
structure Sound (catalog : Catalog) (entity : Shape) (plan : Plan) : Prop where
  leads : Step.Leads catalog entity none plan.steps
  leaf : ∃ last, plan.steps.getLast? = some last ∧ last.type = plan.leaf

variable {catalog : Catalog} {entity : Shape}

theorem Sound.steps_ne_nil {plan : Plan} (h : plan.Sound catalog entity) : plan.steps ≠ [] := by
  obtain ⟨last, hlast, -⟩ := h.leaf
  intro hnil
  simp [hnil] at hlast

theorem sound_of_ofPath {col : Nat} {path : String} {plan : Plan}
    (h : ofPath catalog entity col path = .ok plan) : plan.Sound catalog entity := by
  rw [ofPath] at h
  obtain ⟨steps, hsteps, h⟩ := bind_eq_ok.mp h
  split at h
  · next last hlast =>
    cases h
    exact ⟨Step.leads_of_ofSegments hsteps, last, hlast, rfl⟩
  · cases h

/-- **Every plan of a row of paths is sound.** -/
theorem sound_of_ofRow {dialect : Dialect} {view : View} {pathRow : Nat} {plans : List Plan}
    (h : ofRow dialect catalog entity view pathRow = .ok plans) :
    ∀ plan ∈ plans, plan.Sound catalog entity := by
  rw [ofRow] at h
  obtain ⟨found, hfound, h⟩ := bind_eq_ok.mp h
  cases h
  intro plan hplan
  obtain ⟨_, hmem, rfl⟩ := List.mem_filterMap.mp hplan
  obtain ⟨col, -, hcol⟩ := exists_of_mem_mapM hfound hmem
  rw [ofColumn] at hcol
  split at hcol
  · cases hcol
  · split at hcol
    · cases hcol
    · split at hcol
      · next hpath => cases hcol; exact sound_of_ofPath hpath
      · cases hcol

end Plan
end TypedSheets

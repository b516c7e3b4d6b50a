import TypedSheets.Proofs.BlockDiscovery
import TypedSheets.Proofs.DocumentShape

/-!
# Strict and lenient runs

A source is compiled up to its first error, or in three passes of which each collects its
errors and goes on with the sheets that are left.  Both come to the same: every sheet is
loaded and read by itself, and then compiled among the schemas of all sheets that could be
read.  That is one result for each name of the source, of which the lenient run gives all,
sorted by passes, and the strict run the first that is an error.

## Main definitions

* `Settings.loaded` — the sheets that can be loaded and read.
* `Settings.compileNamed` — the result of one sheet of a source.

## Main results

* `successes_map_bind`, `failures_map_bind` — **two passes are one pass of both steps**, up to
  the order of errors.
* `mapM_eq_ok_iff_failures`, `mem_failures_of_mapM` — a strict pass and a lenient one.
* `Settings.compileLenient_fst`, `Settings.compileLenient_snd` — a lenient run.
* `Settings.strict_iff_lenient` — **the two runs agree, and each sheet is accounted for once.**
-/

namespace TypedSheets

/-! ### Passes -/

section Passes

variable {ε α β γ : Type}

theorem successes_cons_ok (a : α) (results : List (Except ε α)) :
    successes (.ok a :: results) = a :: successes results := rfl

theorem successes_cons_error (e : ε) (results : List (Except ε α)) :
    successes (.error e :: results) = successes results := rfl

theorem failures_cons_ok (a : α) (results : List (Except ε α)) :
    failures (.ok a :: results) = failures results := rfl

theorem failures_cons_error (e : ε) (results : List (Except ε α)) :
    failures (.error e :: results) = e :: failures results := rfl

/-- Every result is a success or a failure. -/
theorem length_successes_add_failures : ∀ results : List (Except ε α),
    (successes results).length + (failures results).length = results.length
  | [] => rfl
  | .ok a :: results => by
    have ih := length_successes_add_failures results
    rw [successes_cons_ok, failures_cons_ok, List.length_cons, List.length_cons]
    omega
  | .error e :: results => by
    have ih := length_successes_add_failures results
    rw [successes_cons_error, failures_cons_error, List.length_cons, List.length_cons]
    omega

theorem mem_failures {results : List (Except ε α)} {e : ε} :
    e ∈ failures results ↔ .error e ∈ results := by
  induction results with
  | nil => simp [failures]
  | cons result results ih =>
    cases result with
    | ok a => rw [failures_cons_ok, ih]; simp
    | error e' => rw [failures_cons_error, List.mem_cons, ih]; simp

/-- The outputs of a pass, each of which tells its input, are in the order of the inputs. -/
theorem map_successes_sublist {f : α → Except ε β} {key : β → α}
    (hkey : ∀ a b, f a = .ok b → key b = a) :
    ∀ inputs : List α, ((successes (inputs.map f)).map key).Sublist inputs
  | [] => List.Sublist.slnil
  | a :: inputs => by
    have ih := map_successes_sublist hkey inputs
    rw [List.map_cons]
    cases hresult : f a with
    | ok b =>
      rw [successes_cons_ok, List.map_cons, hkey a b hresult]
      exact ih.cons_cons a
    | error e =>
      rw [successes_cons_error]
      exact ih.cons a

/-- The outputs of two passes. -/
theorem successes_map_bind (f : α → Except ε β) (g : β → Except ε γ) : ∀ inputs : List α,
    successes (inputs.map fun a => f a >>= g) = successes ((successes (inputs.map f)).map g)
  | [] => rfl
  | a :: inputs => by
    have ih := successes_map_bind f g inputs
    rw [List.map_cons, List.map_cons]
    cases hresult : f a with
    | error e => rwa [successes_cons_error]
    | ok b =>
      rw [successes_cons_ok, List.map_cons]
      show successes (g b :: _) = successes (g b :: _)
      cases g b with
      | error e => rwa [successes_cons_error, successes_cons_error]
      | ok c => rw [successes_cons_ok, successes_cons_ok, ih]

/-- The errors of two passes: those of the first come before those of the second, though an
input that fails in the second may precede one that fails in the first. -/
theorem failures_map_bind (f : α → Except ε β) (g : β → Except ε γ) : ∀ inputs : List α,
    (failures (inputs.map f) ++ failures ((successes (inputs.map f)).map g)).Perm
      (failures (inputs.map fun a => f a >>= g))
  | [] => List.Perm.nil
  | a :: inputs => by
    have ih := failures_map_bind f g inputs
    rw [List.map_cons, List.map_cons]
    cases hresult : f a with
    | error e =>
      rw [successes_cons_error, failures_cons_error, List.cons_append]
      exact ih.cons e
    | ok b =>
      rw [successes_cons_ok, failures_cons_ok, List.map_cons]
      show (_ ++ failures (g b :: _)).Perm (failures (g b :: _))
      cases g b with
      | ok c => rwa [failures_cons_ok, failures_cons_ok]
      | error e =>
        rw [failures_cons_error, failures_cons_error]
        -- the second pass finds it after all errors of the first
        exact List.perm_middle.trans (ih.cons e)

/-- A strict pass succeeds if the lenient one has no failures, and gives the same. -/
theorem mapM_eq_ok_iff_failures {f : α → Except ε β} {outputs : List β} : ∀ {inputs : List α},
    inputs.mapM f = .ok outputs ↔
      successes (inputs.map f) = outputs ∧ failures (inputs.map f) = [] := by
  intro inputs
  rw [mapM_eq_ok_iff]
  induction inputs generalizing outputs with
  | nil => simp [successes, failures, eq_comm]
  | cons a inputs ih =>
    rw [List.forall₂_cons_left_iff, List.map_cons]
    cases hresult : f a with
    | error e => simp [failures_cons_error]
    | ok b =>
      rw [successes_cons_ok, failures_cons_ok]
      constructor
      · rintro ⟨b', rest, hb, hrest, rfl⟩
        cases hb
        obtain ⟨hrest, hnone⟩ := ih.mp hrest
        exact ⟨by rw [hrest], hnone⟩
      · rintro ⟨rfl, hnone⟩
        exact ⟨b, _, rfl, ih.mpr ⟨rfl, hnone⟩, rfl⟩

/-- A strict pass fails with a failure of the lenient one. -/
theorem mem_failures_of_mapM {f : α → Except ε β} {inputs : List α} {e : ε}
    (h : inputs.mapM f = .error e) : e ∈ failures (inputs.map f) := by
  obtain ⟨a, ha, he⟩ := exists_of_mapM_error h
  exact mem_failures.mpr (he ▸ List.mem_map_of_mem ha)

end Passes

/-! ### Runs -/

namespace Settings

/-- The sheets of a source that can be loaded and read, in the order of the source. -/
def loaded (settings : Settings) (source : Source) : List (Schema × Grid) :=
  successes (source.names.map (settings.load source))

/-- The result of one sheet of a source: it is loaded and read, and then compiled among the
schemas of all sheets that can be loaded and read. -/
def compileNamed (settings : Settings) (source : Source) (name : String) :
    Except RunError SheetOutput := do
  let sheet ← settings.load source name
  settings.compileSheet sheet.1 sheet.2 ((settings.loaded source).map Prod.fst)

/-- The first pass of a lenient run: a sheet is loaded. -/
def fetch (source : Source) (name : String) : Except RunError (String × Grid) :=
  (source.grid name).map fun grid => (name, grid)

/-- The second pass of a lenient run: a sheet that was loaded is read. -/
def parse (settings : Settings) (sheet : String × Grid) : Except RunError (Schema × Grid) :=
  (settings.readSchema sheet.1 sheet.2).map fun schema => (schema, sheet.2)

variable (settings : Settings) (source : Source)

theorem load_eq_fetch_parse :
    settings.load source = fun name => fetch source name >>= settings.parse := by
  funext name
  rw [load, fetch]
  cases source.grid name with
  | error e => rfl
  | ok grid =>
    show (settings.readSchema name grid >>= fun schema => pure (schema, grid))
      = settings.parse (name, grid)
    rw [parse]
    cases settings.readSchema name grid with
    | error e => rfl
    | ok schema => rfl

theorem compileNamed_eq : settings.compileNamed source = fun name =>
    settings.load source name >>= fun sheet =>
      settings.compileSheet sheet.1 sheet.2 ((settings.loaded source).map Prod.fst) := rfl

/-- The errors of loading and reading. -/
def unreadable : List RunError :=
  failures (source.names.map (fetch source))
    ++ failures ((successes (source.names.map (fetch source))).map settings.parse)

theorem compileLenient_eq : settings.compileLenient source
    = (successes (settings.compileEach (settings.loaded source)),
      settings.unreadable source ++ failures (settings.compileEach (settings.loaded source))) := by
  rw [loaded, load_eq_fetch_parse, successes_map_bind]
  rfl

/-- **A lenient run compiles** every sheet that can be compiled. -/
theorem compileLenient_fst : (settings.compileLenient source).1
    = successes (source.names.map (settings.compileNamed source)) := by
  rw [compileLenient_eq, compileNamed_eq, successes_map_bind]
  rfl

/-- The errors of loading and reading are those of the sheets that are not loaded. -/
theorem unreadable_perm :
    (settings.unreadable source).Perm (failures (source.names.map (settings.load source))) := by
  rw [load_eq_fetch_parse]
  exact failures_map_bind _ _ _

/-- **A lenient run collects** one error for every other sheet. -/
theorem compileLenient_snd : (settings.compileLenient source).2.Perm
    (failures (source.names.map (settings.compileNamed source))) := by
  rw [compileLenient_eq, compileNamed_eq]
  exact ((unreadable_perm settings source).append_right _).trans (failures_map_bind _ _ _)

variable {settings source}

/-- **A strict run succeeds** as a lenient one without errors does. -/
theorem compileStrict_eq_ok {outputs : List SheetOutput} :
    settings.compileStrict source = .ok outputs ↔
      settings.compileLenient source = (outputs, []) := by
  -- both modes load the same sheets, but list what they cannot read in another order
  have hread : settings.unreadable source = []
      ↔ failures (source.names.map (settings.load source)) = [] :=
    ⟨fun h => List.nil_perm.mp (h ▸ unreadable_perm settings source),
      fun h => List.perm_nil.mp (h ▸ unreadable_perm settings source)⟩
  rw [compileLenient_eq, Prod.mk.injEq, List.append_eq_nil_iff, compileStrict, bind_eq_ok]
  constructor
  · rintro ⟨sheets, hsheets, houtputs⟩
    obtain ⟨rfl, hnone⟩ := mapM_eq_ok_iff_failures.mp hsheets
    obtain ⟨houtputs, hall⟩ := mapM_eq_ok_iff_failures.mp houtputs
    rw [List.map_id] at houtputs hall
    exact ⟨houtputs, hread.mpr hnone, hall⟩
  · rintro ⟨houtputs, hnone, hall⟩
    refine ⟨settings.loaded source, mapM_eq_ok_iff_failures.mpr ⟨rfl, hread.mp hnone⟩, ?_⟩
    rw [mapM_eq_ok_iff_failures, List.map_id]
    exact ⟨houtputs, hall⟩

/-- **A strict run fails** with an error of the lenient one: of a sheet that cannot be read if
there is one, and otherwise of a sheet that cannot be compiled. -/
theorem mem_of_compileStrict_error {e : RunError} (h : settings.compileStrict source = .error e) :
    e ∈ (settings.compileLenient source).2 := by
  rw [compileLenient_eq, List.mem_append]
  rw [compileStrict] at h
  rcases bind_eq_error.mp h with hread | ⟨sheets, hsheets, hcompile⟩
  · exact Or.inl ((unreadable_perm settings source).mem_iff.mpr (mem_failures_of_mapM hread))
  · obtain ⟨rfl, -⟩ := mapM_eq_ok_iff_failures.mp hsheets
    have hmem := mem_failures_of_mapM hcompile
    rw [List.map_id] at hmem
    exact Or.inr hmem

/-- A sheet is compiled under its name in the source. -/
theorem name_of_compileNamed {name : String} {output : SheetOutput}
    (h : settings.compileNamed source name = .ok output) : output.name = name := by
  obtain ⟨⟨schema, grid⟩, hload, hcompile⟩ := bind_eq_ok.mp h
  obtain ⟨grid', -, hload⟩ := bind_eq_ok.mp hload
  obtain ⟨schema', hread, hload⟩ := bind_eq_ok.mp hload
  cases hload
  obtain ⟨dialect, -, hread⟩ := bind_eq_ok.mp hread
  obtain ⟨-, -, -, -, -, -, rfl⟩ := compileSheet_eq_ok.mp hcompile
  exact (Schema.foundAt_of_read (charge_eq_ok.mp hread)).1

/-- **The two runs agree, and each sheet is accounted for once.**  The strict run succeeds if
and only if the lenient one has no errors, with the same outputs, and otherwise fails with one
of its errors.  In every case there is an output or an error for each sheet: the outputs bear
names of the source, in its order; both together are as many as the names; an output is its
sheet compiled among exactly the schemas of the sheets that can be loaded and read, in the
order of the source; and the errors are those of the other sheets, sorted by passes. -/
theorem strict_iff_lenient (settings : Settings) (source : Source) :
    (∀ outputs, settings.compileStrict source = .ok outputs ↔
      settings.compileLenient source = (outputs, [])) ∧
    (∀ e, settings.compileStrict source = .error e → e ∈ (settings.compileLenient source).2) ∧
    ((settings.compileLenient source).1.map SheetOutput.name).Sublist source.names ∧
    (settings.compileLenient source).1.length + (settings.compileLenient source).2.length
      = source.names.length ∧
    (settings.compileLenient source).1
      = successes (source.names.map (settings.compileNamed source)) ∧
    (settings.compileLenient source).2.Perm
      (failures (source.names.map (settings.compileNamed source))) := by
  have hfst := compileLenient_fst settings source
  have hsnd := compileLenient_snd settings source
  refine ⟨fun _ => compileStrict_eq_ok, fun _ => mem_of_compileStrict_error, ?_, ?_, hfst, hsnd⟩
  · rw [hfst]
    exact map_successes_sublist (fun _ _ => name_of_compileNamed) source.names
  · rw [hfst, hsnd.length_eq, length_successes_add_failures, List.length_map]

end Settings

/-! ### Three sheets of which one compiles -/

namespace Shelf

/-- A source that lists a sheet that it does not have, the shelf, and the shelf with two
designs. -/
def source : Source :=
  ⟨["Missing", "Shelf", "Clash"], Memory.grid ⟨[("Shelf", grid), ("Clash", clash)]⟩⟩

example : (({} : Settings).compileLenient source).1.map SheetOutput.name = ["Shelf"] ∧
    (({} : Settings).compileLenient source).2.length = 2 := by
  decide +kernel

end Shelf
end TypedSheets

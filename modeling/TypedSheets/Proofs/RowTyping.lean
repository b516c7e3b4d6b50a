import TypedSheets.Proofs.Writing

/-!
# Data rows conform to the types of their sheet

A row starts out conforming, and each cell that is written keeps it so.  Hence a row
is refused for the first of its cells that has something wrong with it, in the order
of the columns, and is read otherwise.

## Main results

* `Catalog.readRow_of_rowFault?`, `Catalog.readRow_conforms` — one row.
* `Catalog.toOption_readRows_congr` — rows are read alike if each of them is.
* `Catalog.readRows_typed` — **all rows: every value that is read conforms, and no path
  misses its container.**
-/

namespace TypedSheets
namespace Catalog

variable {catalog : Catalog} {entity : Shape} {view : View} {plans : List Plan}

/-! ### One row -/

/-- The first thing that is wrong with a cell of a row. -/
def rowFault? (catalog : Catalog) (view : View) (plans : List Plan) (row : Nat) : Option Fault :=
  plans.findSome? (catalog.cellFault? view row)

/-- Writing the cells of a row one after another, from any conforming value on. -/
theorem foldlM_writeCell (hdistinct : catalog.DistinctNames) (hnames : entity.names.Nodup)
    {row : Nat} : ∀ (plans : List Plan) {value : Value},
    (∀ plan ∈ plans, plan.Sound catalog entity) → catalog.RowConforms entity value →
      (∀ fault, catalog.rowFault? view plans row = some fault →
        plans.foldlM (catalog.writeCell view row) value = .error fault) ∧
      (catalog.rowFault? view plans row = none →
        ∃ written, plans.foldlM (catalog.writeCell view row) value = .ok written ∧
          catalog.RowConforms entity written) := by
  intro plans
  induction plans with
  | nil =>
    intro value _ hvalue
    refine ⟨?_, fun _ => ⟨value, rfl, hvalue⟩⟩
    intro fault h
    cases h
  | cons plan plans ih =>
    intro value hplans hvalue
    rw [rowFault?, List.findSome?_cons, List.foldlM_cons]
    cases hcell : catalog.cellFault? view row plan with
    | some fault =>
      -- the cell is refused before it is written, so the row so far does not matter
      rw [writeCell_of_cellFault? hcell]
      refine ⟨?_, fun h => by cases h⟩
      intro fault' h
      cases h
      rfl
    | none =>
      obtain ⟨written, hwritten, hconforms⟩ :=
        writeCell_of_sound hdistinct hnames (hplans plan (by simp)) hvalue hcell
      rw [hwritten]
      exact ih (fun p hp => hplans p (List.mem_cons_of_mem _ hp)) hconforms

theorem readRow_of_rowFault? (hdistinct : catalog.DistinctNames) (hnames : entity.names.Nodup)
    (hplans : ∀ plan ∈ plans, plan.Sound catalog entity) {row : Nat} {fault : Fault}
    (h : catalog.rowFault? view plans row = some fault) :
    catalog.readRow view entity plans row = .error fault :=
  (foldlM_writeCell hdistinct hnames plans hplans (newRow_conforms hdistinct hnames)).1 fault h

theorem readRow_conforms (hdistinct : catalog.DistinctNames) (hnames : entity.names.Nodup)
    (hplans : ∀ plan ∈ plans, plan.Sound catalog entity) {row : Nat}
    (h : catalog.rowFault? view plans row = none) :
    ∃ value, catalog.readRow view entity plans row = .ok value ∧
      catalog.RowConforms entity value :=
  (foldlM_writeCell hdistinct hnames plans hplans (newRow_conforms hdistinct hnames)).2 h

/-- What is wrong with a cell is never its path. -/
theorem code?_of_cellFault? {row : Nat} {plan : Plan} {fault : Fault}
    (h : catalog.cellFault? view row plan = some fault) : fault.code? ≠ some .e301 := by
  rw [cellFault?] at h
  split at h
  · split at h
    · cases h
    · cases h; simp [Fault.code?]
  · split at h
    · cases h
    · cases h; simp [Fault.code?]

/-! ### All rows -/

section Step

variable {keys : List String} {row : Nat} {value : Value} {seen : List (Key × Nat)}

theorem readRows_cons_of_error {fault : Fault} (rows : List Nat)
    (h : catalog.readRow view entity plans row = .error fault) :
    catalog.readRows view entity plans keys (row :: rows) seen = .error fault := by
  rw [readRows, h]
  rfl

theorem readRows_cons_of_seen {entry : Key × Nat} (rows : List Nat)
    (h : catalog.readRow view entity plans row = .ok value)
    (hseen : (seen.find? fun entry => (keyOf keys value).same entry.1) = some entry) :
    catalog.readRows view entity plans keys (row :: rows) seen
      = .error (.repeatedKey (keyOf keys value) (view.place row 0) (view.place entry.2 0)) := by
  rw [readRows, h]
  simp only [bind, Except.bind, hseen]
  rfl

theorem readRows_cons_of_new (rows : List Nat)
    (h : catalog.readRow view entity plans row = .ok value)
    (hnew : (seen.find? fun entry => (keyOf keys value).same entry.1) = none) :
    catalog.readRows view entity plans keys (row :: rows) seen
      = (catalog.readRows view entity plans keys rows ((keyOf keys value, row) :: seen)).map
          (value :: ·) := by
  rw [readRows, h]
  simp only [bind, Except.bind, hnew]
  cases catalog.readRows view entity plans keys rows ((keyOf keys value, row) :: seen) with
  | error fault => rfl
  | ok values => rfl

end Step

/-- Rows are read alike in two places if each of them is, and the same keys were seen. -/
theorem toOption_readRows_congr {catalog' : Catalog} {view' : View} {entity' : Shape}
    {plans' : List Plan} {keys : List String} {place : Nat → Nat} :
    ∀ (rows : List Nat) {seen seen' : List (Key × Nat)},
      (∀ row ∈ rows, (catalog'.readRow view' entity' plans' (place row)).toOption
        = (catalog.readRow view entity plans row).toOption) →
      seen'.map Prod.fst = seen.map Prod.fst →
      (catalog'.readRows view' entity' plans' keys (rows.map place) seen').toOption
        = (catalog.readRows view entity plans keys rows seen).toOption := by
  intro rows
  induction rows with
  | nil => intro seen seen' _ _; rfl
  | cons row rows ih =>
    intro seen seen' hrows hseen
    rw [List.forall_mem_cons] at hrows
    obtain ⟨hrow, hrows⟩ := hrows
    rw [List.map_cons]
    cases hread : catalog.readRow view entity plans row with
    | error fault =>
      rw [hread] at hrow
      cases hread' : catalog'.readRow view' entity' plans' (place row) with
      | error fault' =>
        rw [readRows_cons_of_error _ hread, readRows_cons_of_error _ hread']
        rfl
      | ok value => rw [hread'] at hrow; cases hrow
    | ok value =>
      rw [hread] at hrow
      have hread' := toOption_eq_some_iff.mp hrow
      -- whether a key was seen depends on the keys alone
      have hfind : (seen'.find? fun entry => (keyOf keys value).same entry.1).map Prod.fst
          = (seen.find? fun entry => (keyOf keys value).same entry.1).map Prod.fst := by
        have hkeys := congrArg (List.find? (keyOf keys value).same) hseen
        rwa [List.find?_map, List.find?_map] at hkeys
      cases hold : seen.find? fun entry => (keyOf keys value).same entry.1 with
      | some entry =>
        rw [hold] at hfind
        obtain ⟨entry', hold', -⟩ := Option.map_eq_some_iff.mp hfind
        rw [readRows_cons_of_seen _ hread hold, readRows_cons_of_seen _ hread' hold']
        rfl
      | none =>
        rw [hold] at hfind
        have hmore : ((keyOf keys value, place row) :: seen').map Prod.fst
            = ((keyOf keys value, row) :: seen).map Prod.fst := by
          rw [List.map_cons, List.map_cons, hseen]
        rw [readRows_cons_of_new _ hread hold,
          readRows_cons_of_new _ hread' (Option.map_eq_none_iff.mp hfind),
          toOption_map, toOption_map, ih hrows hmore]

/-- **What reading one more row does**: the row is refused for one of its cells, or for its
key, or it is read and the rows after it follow. -/
theorem readRows_cons_cases (hdistinct : catalog.DistinctNames) (hnames : entity.names.Nodup)
    (hplans : ∀ plan ∈ plans, plan.Sound catalog entity) (keys : List String) (row : Nat)
    (rows : List Nat) (seen : List (Key × Nat)) :
    (∃ fault, catalog.rowFault? view plans row = some fault ∧
      catalog.readRows view entity plans keys (row :: rows) seen = .error fault) ∨
    (∃ key cell first, catalog.readRows view entity plans keys (row :: rows) seen
      = .error (.repeatedKey key cell first)) ∨
    ∃ value later, catalog.RowConforms entity value ∧
      catalog.readRows view entity plans keys (row :: rows) seen
        = (catalog.readRows view entity plans keys rows later).map (value :: ·) := by
  cases hfault : catalog.rowFault? view plans row with
  | some fault =>
    exact Or.inl ⟨fault, rfl,
      readRows_cons_of_error rows (readRow_of_rowFault? hdistinct hnames hplans hfault)⟩
  -- the cells are in order, so only the key may be refused
  | none =>
    obtain ⟨value, hvalue, hconforms⟩ := readRow_conforms hdistinct hnames hplans hfault
    cases hfind : seen.find? fun entry => (keyOf keys value).same entry.1 with
    | some entry =>
      exact Or.inr (Or.inl ⟨_, _, _, readRows_cons_of_seen rows hvalue hfind⟩)
    | none =>
      exact Or.inr (Or.inr ⟨value, _, hconforms, readRows_cons_of_new rows hvalue hfind⟩)

theorem code?_of_readRows (hdistinct : catalog.DistinctNames) (hnames : entity.names.Nodup)
    (hplans : ∀ plan ∈ plans, plan.Sound catalog entity) {keys : List String} {fault : Fault} :
    ∀ (rows : List Nat) (seen : List (Key × Nat)),
      catalog.readRows view entity plans keys rows seen = .error fault →
        fault.code? ≠ some .e301 := by
  intro rows
  induction rows with
  | nil => intro seen h; cases h
  | cons row rows ih =>
    intro seen h
    rcases readRows_cons_cases hdistinct hnames hplans keys row rows seen with
      ⟨_, hfault, hread⟩ | ⟨_, _, _, hread⟩ | ⟨value, _, -, hread⟩
    · -- a fault of a row is that of one of its cells
      rw [hread] at h
      cases h
      obtain ⟨plan, -, hplan⟩ := List.exists_of_findSome?_eq_some hfault
      exact code?_of_cellFault? hplan
    · rw [hread] at h
      cases h
      simp [Fault.code?]
    · rw [hread] at h
      exact ih _ (map_eq_error.mp h)

theorem readRows_conforms (hdistinct : catalog.DistinctNames) (hnames : entity.names.Nodup)
    (hplans : ∀ plan ∈ plans, plan.Sound catalog entity) {keys : List String} :
    ∀ (rows : List Nat) (seen : List (Key × Nat)) {values : List Value},
      catalog.readRows view entity plans keys rows seen = .ok values →
        values.length = rows.length ∧ ∀ value ∈ values, catalog.RowConforms entity value := by
  intro rows
  induction rows with
  | nil =>
    intro seen values h
    cases h
    simp
  | cons row rows ih =>
    intro seen values h
    rcases readRows_cons_cases hdistinct hnames hplans keys row rows seen with
      ⟨_, -, hread⟩ | ⟨_, _, _, hread⟩ | ⟨value, _, hvalue, hread⟩
    · rw [hread] at h; cases h
    · rw [hread] at h; cases h
    · rw [hread] at h
      obtain ⟨rest, hrest, rfl⟩ := map_eq_ok.mp h
      obtain ⟨hlength, hvalues⟩ := ih _ hrest
      exact ⟨by simp [hlength], List.forall_mem_cons.mpr ⟨hvalue, hvalues⟩⟩

/-- **Data rows are well typed.**  For every catalog whose shapes have distinct names,
every list of plans made from a row of paths and all data rows: reading never fails
because a path misses its container, and when it succeeds there is one value for each
row, and every value conforms to the shape of the rows. -/
theorem readRows_typed {dialect : Dialect} {paths : View} {pathRow : Nat}
    (hdistinct : catalog.DistinctNames) (hentity : catalog.entity = some entity)
    (hplans : Plan.ofRow dialect catalog entity paths pathRow = .ok plans)
    (view : View) (keys : List String) (rows : List Nat) :
    (∀ fault, catalog.readRows view entity plans keys rows [] = .error fault →
      fault.code? ≠ some .e301) ∧
    ∀ values, catalog.readRows view entity plans keys rows [] = .ok values →
      values.length = rows.length ∧ ∀ value ∈ values, catalog.RowConforms entity value :=
  have hnames := hdistinct.1 entity hentity
  have hsound := Plan.sound_of_ofRow hplans
  ⟨fun _ => code?_of_readRows hdistinct hnames hsound rows [],
    fun _ => readRows_conforms hdistinct hnames hsound rows []⟩

end Catalog

/-! ### A sheet of trees

Records that mention themselves in a field, lists that may be left out, an enumeration
without a zero and a reference. -/

namespace Trees

def naming : NameStyle := ⟨.pascal, {}⟩

def kinds : EnumDecl := ⟨false, .int, [⟨"Leaf", some 1, 1, none, ⟨2, 0⟩⟩]⟩

def schema : Schema := ⟨"Tree", [
  ⟨some "Kind", [], none, ⟨0, 0⟩, .enum kinds⟩,
  ⟨some "Node", [], none, ⟨3, 0⟩, .record ⟨false, [
    ⟨"Kind", .named "Kind", false, none, ⟨5, 0⟩, ⟨5, 1⟩⟩,
    ⟨"Next", .named "Node", false, none, ⟨6, 0⟩, ⟨6, 1⟩⟩,
    ⟨"Marks", .nullable (.list (.scalar .ulong)), false, none, ⟨7, 0⟩, ⟨7, 1⟩⟩]⟩⟩,
  ⟨none, [], none, ⟨8, 0⟩, .design ⟨[], [
    ⟨"Id", .scalar .int, true, none, false, none, ⟨10, 0⟩, ⟨10, 1⟩⟩,
    ⟨"Root", .nullable (.named "Node"), false, none, false, none, ⟨11, 0⟩, ⟨11, 1⟩⟩,
    ⟨"Nodes", .list (.named "Node"), false, none, false, none, ⟨12, 0⟩, ⟨12, 1⟩⟩,
    ⟨"ParentId", .nullable (.scalar .int), false, some "Tree", false, none,
      ⟨13, 0⟩, ⟨13, 1⟩⟩]⟩⟩]⟩

def nodeShape : Shape := ⟨[
  ⟨"Kind", "Kind", .enum "Kind", false⟩,
  ⟨"Next", "Next", .record "Node", false⟩,
  ⟨"Marks", "Marks", .nullable (.list (.scalar .ulong)), false⟩]⟩

def shape : Shape := ⟨[
  ⟨"Id", "Id", .scalar .int, false⟩,
  ⟨"Root", "Root", .nullable (.record "Node"), false⟩,
  ⟨"Nodes", "Nodes", .list (.record "Node"), false⟩,
  ⟨"ParentId", "ParentId", .reference (.nullable (.scalar .int)) "Tree", false⟩]⟩

def catalog : Catalog :=
  ⟨naming, [("Kind", kinds)], [("Node", nodeShape)], [], some shape, ⟨[]⟩⟩

/-- A row of paths above four data rows.  The third repeats the key of the first, and the
last lacks a value. -/
def view : View where
  grid := ⟨#[
    #[some "Id", some "Nodes[1].Next.Marks[1]", some "Root.Kind", some "Nodes", some "ParentId"],
    #[some "1", some "7", some "Leaf", none, none],
    #[some "2", none, some "0", some "[\x7b\"Next\": \x7b\"Marks\": [3]\x7d\x7d]", some "1"],
    #[some "1", none, some "Leaf", none, some "2"],
    #[some "3", none, none, none, none]]⟩
  top := 0
  left := 0
  height := 5
  width := 5

def plans : List Plan := (Plan.ofRow default catalog shape view 0).toOption.getD []

theorem ofSchemas_schema : Catalog.ofSchemas schema [] naming = .ok catalog := rfl

theorem ofRow_view : Plan.ofRow default catalog shape view 0 = .ok plans := rfl

theorem distinctNames : catalog.DistinctNames := by decide

/-- The first two rows are read, and conform. -/
theorem readRows_typed_view : Catalog.ofSchemas schema [] naming = .ok catalog ∧
    ∃ values, catalog.readRows view shape plans ["Id"] [1, 2] [] = .ok values ∧
      values.length = 2 ∧ ∀ value ∈ values, catalog.RowConforms shape value := by
  obtain ⟨values, hvalues⟩ : ∃ values,
      catalog.readRows view shape plans ["Id"] [1, 2] [] = .ok values :=
    exists_ok_of_isOk (by decide +kernel)
  exact ⟨ofSchemas_schema, values, hvalues,
    (Catalog.readRows_typed distinctNames rfl ofRow_view view ["Id"] [1, 2]).2 values hvalues⟩

end Trees
end TypedSheets

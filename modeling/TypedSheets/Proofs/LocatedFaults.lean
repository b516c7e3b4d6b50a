import TypedSheets.Compiler
import TypedSheets.Proofs.BlockDiscovery

/-!
# Faults are located and numbered

A sheet that cannot be compiled gives one diagnostic.  It is an error with a code, and it
points at cells: first at the one at fault, then at those that explain it.  All faults are
marked in this way, and all but one have a code.  The one without is a block that does not
fit into the sheet, and it never comes up: a header lies inside the sheet, and its block goes
no further than the sheet does.

The other faults are told apart by where they arise, so every reader is shown to fail with
numbered faults only, from the cells of a block up to all data of a sheet.

## Main definitions

* `FailsOnly` — that every error of a result has a property.
* `Fault.Numbered` — that a fault has a code.
* `RunError.Located` — that an error is one located, numbered diagnostic of a sheet.

## Main results

* `Fault.exists_labels` — **every fault is marked first at the cell at fault.**
* `Block.readAt_numbered` — **a block fits into its sheet.**
* `Schema.read_numbered`, `Catalog.ofSchemas_numbered`, `SheetValues.read_numbered` — readers.
* `Settings.fails_located` — **a sheet fails with one located, numbered diagnostic.**
-/

namespace TypedSheets

/-! ### Results and their errors -/

section Failing

variable {ε α β : Type} {p : ε → Prop}

/-- Every error of a result has a property. -/
def FailsOnly (p : ε → Prop) (x : Except ε α) : Prop := ∀ e, x = .error e → p e

namespace FailsOnly

theorem ok (a : α) : FailsOnly p (.ok a) := by
  intro e h
  cases h

theorem error {e : ε} (h : p e) : FailsOnly p (.error e : Except ε α) := by
  intro e' he
  cases he
  exact h

theorem bind {x : Except ε α} {f : α → Except ε β} (hx : FailsOnly p x)
    (hf : ∀ a, x = .ok a → FailsOnly p (f a)) : FailsOnly p (x >>= f) := by
  intro e h
  rcases bind_eq_error.mp h with h | ⟨a, ha, h⟩
  · exact hx e h
  · exact hf a ha e h

theorem map {x : Except ε α} (hx : FailsOnly p x) (f : α → β) : FailsOnly p (x.map f) :=
  fun e h => hx e (map_eq_error.mp h)

theorem mapM {f : α → Except ε β} {xs : List α} (h : ∀ a ∈ xs, FailsOnly p (f a)) :
    FailsOnly p (xs.mapM f) := by
  intro e he
  obtain ⟨a, ha, hfa⟩ := exists_of_mapM_error he
  exact h a ha e hfa

theorem foldlM {f : β → α → Except ε β} {xs : List α} (h : ∀ b, ∀ a ∈ xs, FailsOnly p (f b a))
    (init : β) : FailsOnly p (xs.foldlM f init) := by
  induction xs generalizing init with
  | nil => exact ok init
  | cons a xs ih =>
    rw [List.foldlM_cons]
    have hrest : ∀ b, ∀ d ∈ xs, FailsOnly p (f b d) :=
      fun b d hd => h b d (List.mem_cons_of_mem a hd)
    exact bind (h init a (by simp)) fun b _ => ih hrest b

end FailsOnly

end Failing

/-! ### Faults -/

namespace Fault

/-- That a fault has a code. -/
def Numbered (fault : Fault) : Prop := fault.code?.isSome = true

/-- Only a block that does not fit has no code. -/
theorem numbered_iff {fault : Fault} :
    fault.Numbered ↔ ∀ error cell, fault ≠ .badRange error cell := by
  cases fault <;> simp [Numbered, code?]

/-- **Every fault is marked first at the cell at fault**, and then at cells that explain it. -/
theorem exists_labels (fault : Fault) : ∃ first rest, fault.labels = first :: rest ∧
    first.isPrimary = true ∧ ∀ label ∈ rest, label.isPrimary = false := by
  cases fault <;> simp [labels, Label.primary, Label.secondary]

end Fault

/-! ### Blocks -/

namespace Table

theorem findColumns_numbered (view : View) (known : List (String × Column)) :
    ∀ (cells : List (Option String × Nat)) (places : List (String × Nat)),
      FailsOnly Fault.Numbered (findColumns view known cells places) := by
  intro cells places
  fun_induction findColumns view known cells places with
  | case1 places => exact .ok places
  | case2 _ _ _ ih => exact ih
  | case3 => exact .error rfl
  | case4 => exact .error rfl
  | case5 _ _ _ _ _ _ _ _ _ ih => exact ih

theorem ofView_numbered (dialect : Dialect) (view : View) (columns : List Column) :
    FailsOnly Fault.Numbered (ofView dialect view columns) := by
  rw [ofView]
  refine (findColumns_numbered view _ _ _).bind fun places _ => ?_
  split
  · exact .error rfl
  · exact .ok _

variable (table : Table) (row : Nat)

theorem checkRow_numbered : FailsOnly Fault.Numbered (table.checkRow row) := by
  rw [checkRow]
  split
  · exact .error rfl
  · exact .ok _

theorem required_numbered (column : String) :
    FailsOnly Fault.Numbered (table.required row column) := by
  rw [required]
  split
  · exact .ok _
  · exact .error rfl

theorem flag_numbered (column : String) : FailsOnly Fault.Numbered (table.flag row column) := by
  rw [flag]
  split
  · exact .ok _
  · split
    · exact .ok _
    · split
      · exact .ok _
      · exact .error rfl

theorem readRows_numbered {σ α : Type} {step : σ → Nat → String → Except Fault (σ × α)}
    (hstep : ∀ state row name, FailsOnly Fault.Numbered (step state row name)) :
    ∀ (rows : List Nat) (seen : List (String × Cell)) (state : σ),
      FailsOnly Fault.Numbered (table.readRows step rows seen state) := by
  intro rows
  induction rows with
  | nil => exact fun _ _ => .ok []
  | cons row rows ih =>
    intro seen state
    rw [readRows]
    -- each part of the loop fails with a number, and so does what comes after it
    refine (table.checkRow_numbered row).bind fun _ _ => ?_
    refine (table.required_numbered row "Name").bind fun name _ => ?_
    split
    · exact .error rfl
    · refine (hstep state row name).bind fun next _ => ?_
      exact (ih _ _).bind fun _ _ => .ok _

theorem readAll_numbered {α : Type} {dialect : Dialect} {read : Nat → String → Except Fault α}
    (hread : ∀ row name, FailsOnly Fault.Numbered (read row name)) :
    FailsOnly Fault.Numbered (table.readAll dialect read) :=
  table.readRows_numbered (fun _ row name => (hread row name).map _) _ _ _

theorem typeOf_numbered : FailsOnly Fault.Numbered (table.typeOf row) := by
  rw [typeOf]
  refine (table.required_numbered row "Type").bind fun text _ => ?_
  split
  · exact .ok _
  · exact .error rfl

theorem optional_numbered (type : WrittenType) :
    FailsOnly Fault.Numbered (table.optional row type) := by
  rw [optional]
  refine (table.flag_numbered row "Optional").bind fun optional _ => ?_
  split
  · exact .error rfl
  · exact .ok _

end Table

theorem Member.read_numbered (table : Table) (backing : Scalar) (next : Int) (row : Nat)
    (name : String) : FailsOnly Fault.Numbered (Member.read table backing next row name) := by
  rw [Member.read]
  refine FailsOnly.bind ?_ fun explicit _ => ?_
  · rw [explicitValue]
    split
    · exact .ok _
    · split
      · exact .ok _
      · exact .error rfl
  · simp only
    split
    · exact .ok _
    · exact .error rfl

theorem FieldDecl.read_numbered (table : Table) (row : Nat) (name : String) :
    FailsOnly Fault.Numbered (FieldDecl.read table row name) := by
  rw [FieldDecl.read]
  refine (table.typeOf_numbered row).bind fun type _ => ?_
  exact (table.optional_numbered row type).bind fun _ _ => .ok _

theorem ConstantDecl.read_numbered (table : Table) (row : Nat) (name : String) :
    FailsOnly Fault.Numbered (ConstantDecl.read table row name) := by
  rw [ConstantDecl.read]
  exact (table.typeOf_numbered row).bind fun _ _ => .ok _

theorem EntityField.read_numbered (table : Table) (row : Nat) (name : String) :
    FailsOnly Fault.Numbered (EntityField.read table row name) := by
  rw [EntityField.read]
  refine (table.typeOf_numbered row).bind fun type _ => ?_
  refine (table.optional_numbered row type).bind fun _ _ => ?_
  exact (table.flag_numbered row "IsPrimaryKey").bind fun _ _ => .ok _

theorem DesignDecl.read_numbered (dialect : Dialect) (view : View) :
    FailsOnly Fault.Numbered (DesignDecl.read dialect view) := by
  rw [DesignDecl.read]
  refine (Table.ofView_numbered dialect view designColumns).bind fun table _ => ?_
  refine (table.readAll_numbered (EntityField.read_numbered table)).bind fun fields _ => ?_
  split
  · exact .ok _
  · exact .error rfl

theorem BlockContent.read_numbered (dialect : Dialect) (kind : BlockKind) (view : View)
    (options : List String) :
    FailsOnly Fault.Numbered (BlockContent.read dialect kind view options) := by
  cases kind with
  | description =>
    refine FailsOnly.map ?_ _
    rw [descriptionText]
    split
    · exact .ok _
    · exact .error rfl
  | enum =>
    refine FailsOnly.map ?_ _
    refine (Table.ofView_numbered dialect view enumColumns).bind fun table _ => ?_
    exact (table.readRows_numbered (Member.read_numbered table _) _ _ _).bind fun _ _ => .ok _
  | record =>
    refine FailsOnly.map ?_ _
    refine (Table.ofView_numbered dialect view recordColumns).bind fun table _ => ?_
    exact (table.readAll_numbered (FieldDecl.read_numbered table)).bind fun _ _ => .ok _
  | interface => exact .ok _
  | constant =>
    refine FailsOnly.map ?_ _
    refine (Table.ofView_numbered dialect view constantColumns).bind fun table _ => ?_
    exact table.readAll_numbered (ConstantDecl.read_numbered table)
  | design => exact (DesignDecl.read_numbered dialect view).map _

namespace Block

theorem read_numbered (dialect : Dialect) (kind : BlockKind) (view : View) :
    FailsOnly Fault.Numbered (Block.read dialect kind view) := by
  rw [Block.read]
  refine FailsOnly.bind ?_ fun _ _ => ?_
  · rw [blockName]
    split
    · split
      · exact .ok _
      · exact .error rfl
    · exact .ok _
  · exact (BlockContent.read_numbered dialect kind view _).bind fun _ _ => .ok _

variable {dialect : Dialect} {view : View}

/-- **A block fits into its sheet**: its header lies inside of it, and the block ends where
the sheet does or before.  So a block that is refused is refused for what it holds. -/
theorem readAt_numbered {row : Nat} (hrow : isHeaderCell (view.text? row 0) = true)
    (kind : BlockKind) : FailsOnly Fault.Numbered (Block.readAt dialect view kind row) := by
  rw [readAt_eq_read hrow]
  exact read_numbered dialect kind _

theorem readAll_numbered : ∀ {rows : List Nat} (seen : List (BlockKind × Cell)),
    (∀ row ∈ rows, isHeaderCell (view.text? row 0) = true) →
      FailsOnly Fault.Numbered (Block.readAll dialect view rows seen) := by
  intro rows
  induction rows with
  | nil => exact fun _ _ => .ok []
  | cons row rows ih =>
    intro seen hrows
    obtain ⟨hrow, hrows⟩ := List.forall_mem_cons.mp hrows
    rw [Block.readAll]
    -- an unknown tag, a repeated kind, or the block itself
    refine FailsOnly.bind ?_ fun kind _ => ?_
    · rw [headerKind]
      split
      · exact .ok _
      · exact .error rfl
    · split
      · exact .error rfl
      · refine (readAt_numbered hrow kind).bind fun block _ => ?_
        exact (ih _ hrows).bind fun _ _ => .ok _

end Block

theorem Schema.read_numbered (dialect : Dialect) (sheet : String) (view : View) :
    FailsOnly Fault.Numbered (Schema.read dialect sheet view) := by
  rw [Schema.read, headerRows_eq_openings]
  exact (Block.readAll_numbered [] isHeaderCell_of_mem_openings).bind fun _ _ => .ok _

/-! ### Types -/

namespace Scope

theorem ownNames_numbered : ∀ (entries : List (Block × Declaration)) (seen : List (String × Cell)),
    FailsOnly Fault.Numbered (ownNames entries seen) := by
  intro entries
  induction entries with
  | nil => exact fun _ => .ok []
  | cons entry rest ih =>
    intro seen
    rw [ownNames]
    split
    · exact .error rfl
    · exact (ih _).bind fun _ _ => .ok _

theorem resolve_numbered (scope : Scope) (cell : Cell) :
    ∀ type, FailsOnly Fault.Numbered (scope.resolve cell type) := by
  intro type
  induction type with
  | scalar s => exact .ok _
  | named name =>
    rw [resolve]
    split
    · exact .ok _
    · exact .ok _
    · exact .error rfl
  | list element ih => exact ih.map _
  | nullable inner ih => exact ih.map _

end Scope

namespace Catalog

variable (scope : Scope) (naming : NameStyle)

theorem recordShape_numbered (record : RecordDecl) :
    FailsOnly Fault.Numbered (recordShape scope naming record) := by
  refine (FailsOnly.mapM fun field _ => ?_).bind fun _ _ => .ok _
  exact (scope.resolve_numbered field.typeCell field.type).bind fun _ _ => .ok _

theorem resolveRecords_numbered : ∀ (rounds : Nat) (resolved : List (String × Shape))
    (pending : List String),
      FailsOnly Fault.Numbered (resolveRecords scope naming rounds resolved pending) := by
  intro rounds
  induction rounds with
  | zero => exact fun resolved _ => .ok resolved
  | succ rounds ih =>
    intro resolved pending
    rw [resolveRecords]
    split
    · exact .ok _
    · next record _ =>
      exact (recordShape_numbered scope naming record).bind fun _ _ => ih _ _

theorem entityShape_numbered (schema : Schema) :
    FailsOnly Fault.Numbered (entityShape scope naming schema) := by
  rw [entityShape]
  split
  · refine (FailsOnly.mapM fun field _ => ?_).bind fun _ _ => .ok _
    exact (scope.resolve_numbered field.typeCell field.type).bind fun _ _ => .ok _
  · exact .ok _

theorem constantShape_numbered (schema : Schema) :
    FailsOnly Fault.Numbered (constantShape scope naming schema) := by
  refine (FailsOnly.mapM fun field _ => ?_).bind fun _ _ => .ok _
  exact (scope.resolve_numbered field.typeCell field.type).bind fun _ _ => .ok _

theorem ofSchemas_numbered (schema : Schema) (others : List Schema) :
    FailsOnly Fault.Numbered (ofSchemas schema others naming) := by
  rw [ofSchemas]
  refine FailsOnly.bind ?_ fun scope _ => ?_
  · exact (Scope.ownNames_numbered _ _).bind fun _ _ => .ok _
  · refine (entityShape_numbered scope naming schema).bind fun _ _ => ?_
    refine (constantShape_numbered scope naming schema).bind fun _ _ => ?_
    exact (resolveRecords_numbered scope naming _ _ _).bind fun _ _ => .ok _

end Catalog

/-! ### Data -/

namespace DataLayout

theorem firstDataRow_numbered (dialect : Dialect) (view : View) (nameRow : Nat)
    (marker : Option Nat) :
    FailsOnly Fault.Numbered (firstDataRow dialect view nameRow marker) := by
  unfold firstDataRow
  dsimp only
  split
  · cases marker with
    | none => exact .error rfl
    | some row =>
      dsimp only
      split
      · exact .error rfl
      · exact .ok _
  · cases marker with
    | none => exact .ok _
    | some row => exact .error rfl

theorem find_numbered (dialect : Dialect) (view : View) (design : Cell) :
    FailsOnly Fault.Numbered (find dialect view design) := by
  unfold find
  split
  · exact .error rfl
  · dsimp only
    split
    · exact .error rfl
    · exact (firstDataRow_numbered dialect view _ _).bind fun _ _ => .ok _

end DataLayout

theorem Plan.ofRow_numbered (dialect : Dialect) (catalog : Catalog) (entity : Shape) (view : View)
    (pathRow : Nat) :
    FailsOnly Fault.Numbered (Plan.ofRow dialect catalog entity view pathRow) := by
  refine (FailsOnly.mapM fun col _ => ?_).bind fun _ _ => .ok _
  rw [Plan.ofColumn]
  split
  · exact .ok _
  · split
    · exact .ok _
    · split
      · exact .ok _
      · exact .error rfl

namespace Catalog

variable (catalog : Catalog) (view : View)

theorem writeCell_numbered (row : Nat) (value : Value) (plan : Plan) :
    FailsOnly Fault.Numbered (catalog.writeCell view row value plan) := by
  rw [writeCell]
  split
  · split
    · exact .ok _
    · exact .error rfl
  · split
    · exact .error rfl
    · split
      · exact .ok _
      · exact .error rfl

theorem readRows_numbered (entity : Shape) (plans : List Plan) (keys : List String) :
    ∀ (rows : List Nat) (seen : List (Key × Nat)),
      FailsOnly Fault.Numbered (catalog.readRows view entity plans keys rows seen) := by
  intro rows
  induction rows with
  | nil => exact fun _ => .ok []
  | cons row rows ih =>
    intro seen
    rw [readRows]
    refine FailsOnly.bind ?_ fun value _ => ?_
    · exact FailsOnly.foldlM (fun value plan _ => catalog.writeCell_numbered view row value plan) _
    · dsimp only
      split
      · exact .error rfl
      · exact (ih _).bind fun _ _ => .ok _

theorem readConstants_numbered (fields : List ConstantDecl) :
    FailsOnly Fault.Numbered (catalog.readConstants fields) := by
  refine (FailsOnly.mapM fun entry _ => ?_).bind fun _ _ => .ok _
  show FailsOnly Fault.Numbered (catalog.constantValue entry.1 entry.2)
  rw [constantValue]
  split
  · exact .ok _
  · exact .error rfl

end Catalog

namespace SheetValues

variable (dialect : Dialect) (catalog : Catalog) (view : View)

theorem readDesignRows_numbered (block : Block) (design : DesignDecl) (entity : Shape) :
    FailsOnly Fault.Numbered (readDesignRows dialect catalog view block design entity) := by
  refine (DataLayout.find_numbered dialect view block.origin).bind fun layout _ => ?_
  refine (Plan.ofRow_numbered dialect catalog entity view layout.pathRow).bind fun plans _ => ?_
  exact catalog.readRows_numbered view entity plans _ _ _

theorem read_numbered (schema : Schema) :
    FailsOnly Fault.Numbered (SheetValues.read dialect schema catalog view) := by
  rw [SheetValues.read]
  split
  case' h_1 block design entity _ _ =>
    refine ((readDesignRows_numbered dialect catalog view block design entity).map _).bind
      fun _ _ => ?_
  case' h_2 => refine FailsOnly.bind (.ok _) fun _ _ => ?_
  -- the constants come next, whether there are rows or not
  all_goals
    dsimp only
    split
    · next fields _ => exact ((catalog.readConstants_numbered fields).map _).bind fun _ _ => .ok _
    · exact FailsOnly.bind (.ok _) fun _ _ => .ok _

end SheetValues

/-! ### Sheets -/

/-- That an error is one diagnostic of a sheet: an error with a code and with labels, of which
the first marks the cell at fault and the others do not. -/
def RunError.Located (sheet : String) (error : RunError) : Prop :=
  ∃ diagnostic, error = .faulty sheet [diagnostic] ∧ diagnostic.severity = .error ∧
    diagnostic.code.isSome = true ∧
    ∃ first rest, diagnostic.labels = first :: rest ∧ first.isPrimary = true ∧
      ∀ label ∈ rest, label.isPrimary = false

namespace Settings

/-- A numbered fault is charged as a located error. -/
theorem charge_located {α : Type} {x : Except Fault α} (hx : FailsOnly Fault.Numbered x)
    (sheet : String) : FailsOnly (RunError.Located sheet) (charge sheet x) := by
  cases x with
  | ok a => exact .ok a
  | error fault => exact .error ⟨fault.diagnostic, rfl, rfl, hx fault rfl, fault.exists_labels⟩

/-- **A sheet fails with one located, numbered diagnostic**, when its schema is read and when it
is compiled, whatever the grid and the other sheets are.  Reading a schema never fails for a
block that does not fit into the sheet. -/
theorem fails_located (settings : Settings)
    (hsettings : settings.sheet.enumBacking.isInteger = true) :
    (∀ name grid error, settings.readSchema name grid = .error error →
      error.Located name) ∧
    (∀ schema grid schemas error, settings.compileSheet schema grid schemas = .error error →
      error.Located schema.sheet) ∧
    ∀ dialect name (grid : Grid) error cell,
      Schema.read dialect name grid.view ≠ .error (.badRange error cell) := by
  -- the settings themselves are not at fault
  obtain ⟨dialect, hdialect⟩ : ∃ dialect, settings.dialect = .ok dialect := by
    rw [Settings.dialect, SheetSettings.dialect, dif_pos hsettings]
    exact ⟨_, rfl⟩
  refine ⟨fun name grid => ?_, fun schema grid schemas => ?_,
    fun dialect name grid error cell h => ?_⟩
  · show FailsOnly (RunError.Located name) (settings.readSchema name grid)
    rw [readSchema, hdialect]
    exact charge_located (Schema.read_numbered dialect name grid.view) name
  · show FailsOnly (RunError.Located schema.sheet) (settings.compileSheet schema grid schemas)
    rw [compileSheet, hdialect]
    refine (charge_located (Catalog.ofSchemas_numbered _ schema schemas) _).bind fun catalog _ => ?_
    exact (charge_located (SheetValues.read_numbered dialect catalog grid.view schema) _).bind
      fun _ _ => .ok _
  · exact Fault.numbered_iff.mp (Schema.read_numbered dialect name grid.view _ h) error cell rfl

end Settings

/-! ### A sheet of one row, and one of none -/

namespace Lone

def grid : Grid := ⟨#[#[some "[Thing]"]]⟩

def schema : Schema := ⟨"Lone", [⟨none, [], none, ⟨0, 0⟩, .design ⟨[],
  [⟨"Id", .scalar .int, true, none, false, none, ⟨2, 0⟩, ⟨2, 1⟩⟩]⟩⟩]⟩

theorem fails_located_lone :
    (∃ error, ({} : Settings).readSchema "Lone" grid = .error error ∧ error.Located "Lone") ∧
    ∃ error, ({} : Settings).compileSheet schema ⟨#[]⟩ [schema] = .error error ∧
      error.Located "Lone" := by
  obtain ⟨hread, hcompile, -⟩ := Settings.fails_located {} rfl
  have hcompiled : ({} : Settings).compileSheet schema ⟨#[]⟩ [schema]
      = .error (.ofFault "Lone" (.missingNameRow "Name" ⟨0, 0⟩)) := rfl
  obtain ⟨error, herror, -⟩ : ∃ error, ({} : Settings).readSchema "Lone" grid = .error error ∧
      error.sheet? = some "Lone" := exists_error_of_decide _ (by decide +kernel)
  exact ⟨⟨error, herror, hread _ _ _ herror⟩, _, hcompiled, hcompile _ _ _ _ hcompiled⟩

end Lone
end TypedSheets

import TypedSheets.Proofs.NestedViews
import TypedSheets.Proofs.RelocatedOutput
import TypedSheets.Proofs.RowTyping
import TypedSheets.Proofs.SpreadViews

/-!
# Ignored rows

A row whose first cell is blank or starts with the ignore marker is no part of a sheet.  Such
a row may be added anywhere but right below a header, and the sheet compiles as before: the
sheet is spread, so its schema is the old one at other cells, its data section is found at
its new rows, and every data row is read from the same texts.

## Main definitions

* `DataLayout.spread` — a data section at other rows.
* `Grid.insertRow` — a grid with one more row.
* `Settings.compileAmong` — a sheet compiled in its place among others.

## Main results

* `DataLayout.find_spread`, `Plan.ofRow_spread`, `Catalog.readRow_spread` — the data section
  of a spread sheet, its columns and its rows.
* `SheetValues.toOption_read_spread` — **the data of a spread sheet.**
* `Grid.spread_insertRow` — a sheet with an ignored row is spread.
* `Settings.compileAmong_insertRow` — **ignored rows change nothing.**
-/

namespace TypedSheets

section Spread

variable {dialect : Dialect} {move : Nat → Nat} {f : Cell → Cell} {view view' : View}

/-! ### The data section -/

namespace DataLayout

/-- A data section at other rows. -/
def spread (move : Nat → Nat) (part : DataLayout) : DataLayout :=
  ⟨move part.pathRow, part.rows.map move⟩

theorem markerRow?_spread (h : view.Spread dialect move f view') (marker : String)
    {start start' : Nat} (hstart : ∀ row, start' ≤ move row ↔ start ≤ row) :
    markerRow? dialect view' start' marker = (markerRow? dialect view start marker).map move := by
  refine h.rowWhere? (fun cell _ hheader => ?_) hstart
  by_contra htag
  rw [isHeaderCell_of_tag? (of_decide_eq_true (Bool.of_not_eq_false htag))] at hheader
  cases hheader

theorem filledRows_spread (h : view.Spread dialect move f view') {start stop start' stop' : Nat}
    (hstart : ∀ row, start' ≤ move row ↔ start ≤ row)
    (hstop : ∀ row, move row < stop' ↔ row < stop) :
    filledRows dialect view' start' stop' = (filledRows dialect view start stop).map move :=
  h.filter_range' (q := fun cell => !dialect.ignores cell)
    (fun cell hskipped _ => by rw [hskipped]; rfl) hstart hstop

/-- The data rows of a spread sheet start after the same row, or the same fault is found. -/
theorem firstDataRow_spread (h : view.Spread dialect move f view') {nameRow : Nat}
    (hbelow : move (nameRow + 1) = move nameRow + 1) (marker : Option Nat) :
    (∃ fault, firstDataRow dialect view nameRow marker = .error fault ∧
      firstDataRow dialect view' (move nameRow) (marker.map move) = .error (fault.relocate f)) ∨
    ∃ start start', firstDataRow dialect view nameRow marker = .ok start ∧
      firstDataRow dialect view' (move nameRow) (marker.map move) = .ok start' ∧
      ∀ row, start' ≤ move row ↔ start ≤ row := by
  -- the first data row itself need not be moved to the new one: a new row may stand before it
  have hpaths := h.succ_succ_le hbelow
  cases huses : dialect.usesDataMarker with
  | true =>
    cases marker with
    | none =>
      left
      refine ⟨.missingDataRow (view.place nameRow 0), ?_, ?_⟩
      · simp [firstDataRow, huses]
      · simp [firstDataRow, huses, h.cell, Fault.relocate]
    | some row =>
      have hstray := filledRows_spread h hpaths (fun _ => h.mono.lt_iff_lt (b := row))
      cases hfilled : filledRows dialect view (nameRow + 1 + 1) row with
      | nil =>
        right
        refine ⟨row + 1, move row + 1, ?_, ?_, h.succ_le row⟩
        · simp [firstDataRow, huses, hfilled]
        · rw [hfilled] at hstray
          simp [firstDataRow, huses, hstray]
      | cons stray rest =>
        left
        refine ⟨.strayRow (view.place stray 0) (view.place row 0), ?_, ?_⟩
        · simp [firstDataRow, huses, hfilled]
        · rw [hfilled] at hstray
          simp [firstDataRow, huses, hstray, h.cell, Fault.relocate]
  | false =>
    cases marker with
    | none =>
      right
      exact ⟨nameRow + 1 + 1, move nameRow + 1 + 1, by simp [firstDataRow, huses],
        by simp [firstDataRow, huses], hpaths⟩
    | some row =>
      left
      refine ⟨.unexpectedDataRow (view.place row 0), ?_, ?_⟩
      · simp [firstDataRow, huses]
      · simp [firstDataRow, huses, h.cell, Fault.relocate]

/-- **The data section of a spread sheet.** -/
theorem find_spread (h : view.Spread dialect move f view') {design : Cell}
    (hdesign : (f design).row = move design.row) :
    find dialect view' (f design) = relocated f (spread move) (find dialect view design) := by
  have hstart : ∀ row, (f design).row ≤ move row ↔ design.row ≤ row := by
    rw [hdesign]
    exact fun _ => h.mono.le_iff_le
  rw [find, find, markerRow?_spread h nameMarker hstart]
  cases hname : markerRow? dialect view design.row nameMarker with
  | none => rfl
  | some nameRow =>
    -- the marker is a header, so the row of paths is still right below it
    have htag : dialect.tag? (view.text? nameRow 0) = some nameMarker := by
      have hfound := List.find?_some hname
      exact of_decide_eq_true hfound
    have hbelow := h.below nameRow (isHeaderCell_of_tag? htag)
    have hheight : view'.height ≤ move nameRow + 1 ↔ view.height ≤ nameRow + 1 := by
      rw [← hbelow, h.height]
      exact h.mono.le_iff_le
    simp only [Option.map_some, hheight, h.cell,
      markerRow?_spread h dataMarker (h.succ_succ_le hbelow)]
    split
    · rfl
    · rcases firstDataRow_spread h hbelow
          (markerRow? dialect view (nameRow + 1 + 1) dataMarker) with
        ⟨fault, hold, hnew⟩ | ⟨start, start', hold, hnew, hstart⟩
      · rw [hold, hnew]
        rfl
      · rw [hold, hnew]
        simp only [bind, Except.bind, pure, Except.pure, relocated, spread, hbelow,
          filledRows_spread h hstart h.lt_height]

end DataLayout

/-! ### Columns and rows -/

theorem Plan.ofColumn_spread (h : view.Spread dialect move f view') (catalog : Catalog)
    (entity : Shape) (pathRow col : Nat) :
    ofColumn dialect catalog entity view' (move pathRow) col
      = relocated f id (ofColumn dialect catalog entity view pathRow col) := by
  rw [ofColumn, ofColumn, h.text, h.cell]
  split
  · rfl
  · cases view.text? pathRow col with
    | none => rfl
    | some path => cases hpath : ofPath catalog entity col path <;> simp only [hpath] <;> rfl

/-- The columns of a spread sheet are the old ones: those that are added have no path. -/
theorem Plan.ofRow_spread (h : view.Spread dialect move f view') (catalog : Catalog)
    (entity : Shape) (pathRow : Nat) :
    ofRow dialect catalog entity view' (move pathRow)
      = relocated f id (ofRow dialect catalog entity view pathRow) := by
  -- the columns that were there before give what they gave
  have hold : (List.range view.width).mapM (ofColumn dialect catalog entity view' (move pathRow))
      = relocated f id
          ((List.range view.width).mapM (ofColumn dialect catalog entity view pathRow)) := by
    have hcolumns := mapM_relocated_id (g := id) fun col (_ : col ∈ List.range view.width) =>
      ofColumn_spread h catalog entity pathRow col
    rwa [List.map_id] at hcolumns
  -- those that the added row brought with it have no path
  have hnew : ∀ col ∈ List.range' view.width (view'.width - view.width),
      ofColumn dialect catalog entity view' (move pathRow) col = pure none := by
    intro col hcol
    rw [ofColumn, h.text?_of_width_le pathRow (List.mem_range'_1.mp hcol).1]
    rfl
  rw [ofRow, ofRow, range_append_range' h.width, List.mapM_append, mapM_congr hnew,
    List.mapM_pure, hold]
  cases (List.range view.width).mapM (ofColumn dialect catalog entity view pathRow) with
  | error fault => rfl
  | ok plans =>
    have hblank : (List.range' view.width (view'.width - view.width)).filterMap
        (fun _ => (none : Option Plan)) = [] := by simp
    simp only [relocated, id, pure_bind, bind_assoc, List.filterMap_append, List.filterMap_map]
    simp [hblank]

namespace Catalog

theorem writeCell_spread (h : view.Spread dialect move f view') (catalog : Catalog) (row : Nat)
    (value : Value) (plan : Plan) :
    catalog.writeCell view' (move row) value plan
      = relocated f id (catalog.writeCell view row value plan) := by
  rw [writeCell, writeCell, h.text, h.cell]
  cases view.text? row plan.col with
  | none =>
    simp only
    split
    · rfl
    · rfl
  | some text =>
    cases hvalue : catalog.ofText plan.leaf text with
    | error e => simp only [hvalue]; rfl
    | ok converted =>
      simp only [hvalue]
      cases catalog.writeAt plan.steps converted value <;> rfl

/-- **A data row of a spread sheet.** -/
theorem readRow_spread (h : view.Spread dialect move f view') (catalog : Catalog) (entity : Shape)
    (plans : List Plan) (row : Nat) :
    catalog.readRow view' entity plans (move row)
      = relocated f id (catalog.readRow view entity plans row) := by
  rw [readRow, readRow]
  generalize catalog.newRow entity = value
  induction plans generalizing value with
  | nil => rfl
  | cons plan plans ih =>
    rw [List.foldlM_cons, List.foldlM_cons, writeCell_spread h]
    exact relocated_bind fun written _ => ih written

end Catalog

/-! ### The data of a sheet -/

namespace SheetValues

variable {catalog catalog' : Catalog}

theorem toOption_readDesignRows_spread (h : view.Spread dialect move f view')
    (hf : ∀ cell, (f cell).row = move cell.row)
    (hcatalog : catalog'.relocate forget = catalog.relocate forget) (block : Block)
    (design : DesignDecl) (entity : Shape) :
    (readDesignRows dialect catalog' view' (block.relocate f) (design.relocate f) entity).toOption
      = (readDesignRows dialect catalog view block design entity).toOption := by
  -- layout, plans and rows follow each other, each moved along by its own lemma
  have hagrees := Catalog.agrees_of_relocate hcatalog
  have horigin : (block.relocate f).origin = f block.origin := rfl
  rw [readDesignRows, readDesignRows, horigin, DataLayout.find_spread h (hf _), hagrees.naming,
    DesignDecl.keys_relocate, List.map_map, toOption_bind, toOption_bind, toOption_relocated,
    Option.bind_map]
  congr 1
  funext part
  have hplans : Plan.ofRow dialect catalog' entity view' (move part.pathRow)
      = relocated f id (Plan.ofRow dialect catalog entity view part.pathRow) := by
    rw [Plan.ofRow_spread h, Plan.ofRow_agrees hagrees]
  rw [Function.comp_apply, DataLayout.spread, hplans, toOption_bind, toOption_bind,
    toOption_relocated_id]
  congr 1
  funext plans
  refine Catalog.toOption_readRows_congr part.rows (fun row _ => ?_) rfl
  rw [Catalog.readRow_spread h, toOption_relocated_id, hagrees.readRow]

theorem toOption_readConstants_relocate
    (hcatalog : catalog'.relocate forget = catalog.relocate forget) (fields : List ConstantDecl) :
    (catalog'.readConstants (fields.map (ConstantDecl.relocate f))).toOption
      = (catalog.readConstants fields).toOption := by
  have hfields : (fields.map (ConstantDecl.relocate f)).map (ConstantDecl.relocate forget)
      = fields.map (ConstantDecl.relocate forget) := by
    rw [List.map_map]
    rfl
  have hnew := catalog'.readConstants_relocate forget (fields.map (ConstantDecl.relocate f))
  have hold := catalog.readConstants_relocate forget fields
  rw [hfields, hcatalog, hold] at hnew
  have hsame := congrArg Except.toOption hnew
  rwa [toOption_relocated_id, toOption_relocated_id, eq_comm] at hsame

/-- **The data of a spread sheet.** -/
theorem toOption_read_spread (h : view.Spread dialect move f view')
    (hf : ∀ cell, (f cell).row = move cell.row)
    (hcatalog : catalog'.relocate forget = catalog.relocate forget) (schema : Schema) :
    (read dialect (schema.relocate f) catalog' view').toOption
      = (read dialect schema catalog view).toOption := by
  have hentity := (Catalog.agrees_of_relocate hcatalog).entity
  have hrows := toOption_readDesignRows_spread h hf hcatalog
  have hconstants := toOption_readConstants_relocate (f := f) hcatalog
  -- both sheets have the same parts, so the cases go together
  rw [read, read, Schema.design?_relocate, Schema.constants?_relocate, hentity]
  cases schema.design? with
  | none =>
    cases schema.constants? with
    | none => rfl
    | some fields =>
      simp only [Option.map_some, Option.map_none, toOption_bind, toOption_map, hconstants]
  | some entry =>
    cases catalog.entity with
    | none =>
      cases schema.constants? with
      | none => rfl
      | some fields => simp only [Option.map_some, toOption_bind, toOption_map, hconstants]
    | some entity =>
      cases schema.constants? with
      | none => simp only [Option.map_some, Option.map_none, toOption_bind, toOption_map, hrows]
      | some fields => simp only [Option.map_some, toOption_bind, toOption_map, hrows, hconstants]

end SheetValues

end Spread

/-! ### Compiled sheets -/

/-- What a compiled sheet is apart from its warnings, which name cells. -/
def SheetOutput.product (output : SheetOutput) : String × CSharp.CodeFile × Option String :=
  (output.className, output.code, output.data)

namespace Settings

theorem toOption_charge {α : Type} (sheet : String) (x : Except Fault α) :
    (charge sheet x).toOption = x.toOption := by
  cases x <;> rfl

theorem toOption_readSchema {settings : Settings} {dialect : Dialect}
    (hdialect : settings.dialect = .ok dialect) (name : String) (grid : Grid) :
    (settings.readSchema name grid).toOption = (Schema.read dialect name grid.view).toOption := by
  rw [readSchema, hdialect]
  exact toOption_charge name _

theorem toOption_compileSheet_spread {settings : Settings} {dialect : Dialect}
    (hdialect : settings.dialect = .ok dialect) {move : Nat → Nat} {f : Cell → Cell}
    {grid grid' : Grid} (h : grid.view.Spread dialect move f grid'.view)
    (hf : ∀ cell, (f cell).row = move cell.row) (schema : Schema) {schemas schemas' : List Schema}
    (hschemas : schemas'.map (Schema.relocate forget) = schemas.map (Schema.relocate forget)) :
    (settings.compileSheet (schema.relocate f) grid' schemas').toOption.map SheetOutput.product
      = (settings.compileSheet schema grid schemas).toOption.map SheetOutput.product := by
  have hcatalogs := Catalog.toOption_ofSchemas_congr forget settings.names
    (schema.forget_relocate f) hschemas
  have hsheet : (schema.relocate f).sheet = schema.sheet := rfl
  have htaken : (Except.ok dialect : Except RunError Dialect).toOption = some dialect := rfl
  rw [compileSheet, compileSheet, hdialect, hsheet]
  simp only [toOption_bind, toOption_charge, htaken, Option.bind_some]
  cases hold : (Catalog.ofSchemas schema schemas settings.names).toOption with
  | none =>
    rw [hold, Option.map_none, Option.map_eq_none_iff] at hcatalogs
    rw [hcatalogs]
    rfl
  | some catalog =>
    -- the two catalogs are one once cells are forgotten, and nothing below looks at cells
    rw [hold, Option.map_some, Option.map_eq_some_iff] at hcatalogs
    obtain ⟨catalog', hnew, hcatalog⟩ := hcatalogs
    have hagrees := Catalog.agrees_of_relocate hcatalog
    have hdocument := SheetValues.document?_agrees hagrees
    have hcode : CSharp.sheetFile (schema.relocate f) catalog' settings.platforms
        = CSharp.sheetFile schema catalog settings.platforms := by
      rw [← CSharp.sheetFile_relocate forget, Schema.forget_relocate, hcatalog,
        CSharp.sheetFile_relocate]
    rw [hnew]
    simp only [Option.bind_some, hagrees.naming, hdocument, hcode,
      SheetValues.toOption_read_spread h hf hcatalog schema]
    cases (SheetValues.read dialect schema catalog grid.view).toOption with
    | none => rfl
    | some data => rfl

/-- A sheet read and compiled in its place among the schemas of others. -/
def compileAmong (settings : Settings) (left right : List Schema) (name : String) (grid : Grid) :
    Except RunError SheetOutput := do
  let schema ← settings.readSchema name grid
  settings.compileSheet schema grid (left ++ schema :: right)

/-- **A spread sheet compiles to the same code and data.** -/
theorem toOption_compileAmong_spread {settings : Settings} {dialect : Dialect}
    (hdialect : settings.dialect = .ok dialect) {move : Nat → Nat} {f : Cell → Cell}
    {grid grid' : Grid} (h : grid.view.Spread dialect move f grid'.view)
    (hf : ∀ cell, (f cell).row = move cell.row) (left right : List Schema) (name : String) :
    (settings.compileAmong left right name grid').toOption.map SheetOutput.product
      = (settings.compileAmong left right name grid).toOption.map SheetOutput.product := by
  rw [compileAmong, compileAmong, toOption_bind, toOption_bind, toOption_readSchema hdialect,
    toOption_readSchema hdialect, Schema.read_spread h, toOption_relocated]
  cases (Schema.read dialect name grid.view).toOption with
  | none => rfl
  | some schema =>
    refine toOption_compileSheet_spread hdialect h hf schema ?_
    simp only [List.map_append, List.map_cons, Schema.forget_relocate]

end Settings

/-! ### Adding a row -/

/-- The places of rows when one is added at `first`. -/
def shiftFrom (first row : Nat) : Nat := if row < first then row else row + 1

theorem strictMono_shiftFrom (first : Nat) : StrictMono (shiftFrom first) := by
  intro row later hlt
  rw [shiftFrom, shiftFrom]
  split <;> split <;> omega

theorem exists_shiftFrom {first row : Nat} (h : row ≠ first) :
    ∃ old, shiftFrom first old = row := by
  by_cases hlt : row < first
  · exact ⟨row, if_pos hlt⟩
  · refine ⟨row - 1, ?_⟩
    rw [shiftFrom, if_neg (by omega)]
    omega

namespace Grid

variable {grid : Grid}

/-- A grid with one more row. -/
def insertRow (grid : Grid) (first : Nat) (cells : Array (Option String)) : Grid :=
  ⟨(grid.rows.toList.insertIdx first cells).toArray⟩

theorem text?_insertRow {first : Nat} (hfirst : first ≤ grid.height) (cells : Array (Option String))
    (row col : Nat) :
    (grid.insertRow first cells).text? row col
      = if row < first then grid.text? row col
        else if row = first then (cells[col]?).join else grid.text? (row - 1) col := by
  rw [text?, insertRow, List.getElem?_toArray, List.getElem?_insertIdx]
  split
  · rw [Array.getElem?_toList, text?]
  · split
    · next heq =>
      rw [if_pos (by rw [heq]; exact hfirst)]
      rfl
    · rw [Array.getElem?_toList, text?]

/-- **A sheet with an ignored row is spread**, unless the row is right below a header. -/
theorem spread_insertRow {dialect : Dialect} {first : Nat} {cells : Array (Option String)}
    (hfirst : first ≤ grid.height) (hskipped : dialect.ignores (cells[0]?).join = true)
    (hheader : isHeaderCell (cells[0]?).join = false)
    (habove : ∀ above, first = above + 1 → isHeaderCell (grid.text? above 0) = false) :
    grid.view.Spread dialect (shiftFrom first)
      (fun cell => ⟨shiftFrom first cell.row, cell.col⟩) (grid.insertRow first cells).view := by
  have hlength : first ≤ grid.rows.toList.length := hfirst
  constructor
  case mono => exact strictMono_shiftFrom first
  case height =>
    show (grid.insertRow first cells).rows.size = shiftFrom first grid.height
    rw [insertRow, List.size_toArray, List.length_insertIdx, if_pos hlength, shiftFrom,
      if_neg (by omega)]
    rfl
  case width =>
    refine width_le_iff.mpr fun old hold => width_le_iff.mp le_rfl old ?_
    exact (List.mem_insertIdx hlength).mpr (Or.inr hold)
  case text =>
    intro row col
    rw [text?_view, text?_view, text?_insertRow hfirst, shiftFrom]
    by_cases hlt : row < first
    · rw [if_pos hlt, if_pos hlt]
    · rw [if_neg hlt, if_neg (by omega), if_neg (by omega), Nat.add_sub_cancel]
  case cell =>
    intro row col
    simp [View.place, view]
  case between =>
    intro row hrow
    -- every row but the one that is added is the place of an old one
    obtain rfl : row = first := by
      by_contra hne
      obtain ⟨old, hold⟩ := exists_shiftFrom hne
      exact hrow old hold
    rw [text?_view, text?_insertRow hfirst, if_neg (Nat.lt_irrefl row), if_pos rfl]
    exact ⟨hskipped, hheader⟩
  case below =>
    intro row hrow
    rw [text?_view] at hrow
    have hne : first ≠ row + 1 := by
      intro heq
      rw [habove row heq] at hrow
      cases hrow
    rw [shiftFrom, shiftFrom]
    split <;> split <;> omega

end Grid

/-- **Ignored rows change nothing.**  Whatever the settings, the sheet and the schemas beside
it: a row that the dialect skips and that is no header may be added to the sheet anywhere but
right below a header cell, with any other cells.  The sheet compiles with it exactly when it
does without it, and then to the same code under the same name and to the same data. -/
theorem Settings.compileAmong_insertRow {settings : Settings} {grid : Grid} {first : Nat}
    {cells : Array (Option String)} (hfirst : first ≤ grid.height)
    (hskipped : ∀ dialect, settings.dialect = .ok dialect →
      dialect.ignores (cells[0]?).join = true)
    (hheader : isHeaderCell (cells[0]?).join = false)
    (habove : ∀ above, first = above + 1 → isHeaderCell (grid.text? above 0) = false)
    (left right : List Schema) (name : String) :
    ((∃ output, settings.compileAmong left right name (grid.insertRow first cells) = .ok output) ↔
      ∃ output, settings.compileAmong left right name grid = .ok output) ∧
    ∀ output output',
      settings.compileAmong left right name grid = .ok output →
      settings.compileAmong left right name (grid.insertRow first cells) = .ok output' →
      output'.className = output.className ∧ output'.code = output.code ∧
        output'.data = output.data := by
  -- the added row spreads the grid, and what compiles is compared without cells
  have hsame : (settings.compileAmong left right name
        (grid.insertRow first cells)).toOption.map SheetOutput.product
      = (settings.compileAmong left right name grid).toOption.map SheetOutput.product := by
    cases hdialect : settings.dialect with
    | error e => simp only [compileAmong, readSchema, hdialect]; rfl
    | ok dialect =>
      have hspread := Grid.spread_insertRow hfirst (hskipped dialect hdialect) hheader habove
      exact toOption_compileAmong_spread hdialect hspread (fun _ => rfl) left right name
  constructor
  · have hsome := congrArg Option.isSome hsame
    rw [Option.isSome_map, Option.isSome_map, Bool.eq_iff_iff, Option.isSome_iff_exists,
      Option.isSome_iff_exists] at hsome
    simpa only [toOption_eq_some_iff] using hsome
  · intro output output' hold hnew
    rw [hold, hnew] at hsame
    have hproduct : output'.product = output.product := Option.some.inj hsame
    exact ⟨congrArg Prod.fst hproduct, congrArg (·.2.1) hproduct, congrArg (·.2.2) hproduct⟩

/-! ### A sheet with an ignored row -/

namespace Stock

def rows : List (Array (Option String)) := [
  #[some "[Enum]", some "Kind"], #[some "Name"], #[some "Tool"], #[some "Toy"],
  #[some "[Design]"], #[some "Name", some "Type", some "IsPrimaryKey"],
  #[some "Id", some "int", some "true"], #[some "Kind", some "Kind"],
  #[some "[Name]"], #[some "Id", some "Kind"], #[some "[Data]"],
  #[some "1", some "Tool"], #[some "2", some "Toy"]]

def grid : Grid := ⟨rows.toArray⟩

/-- A row of remarks, longer than the rows of the sheet. -/
def remarks : Array (Option String) :=
  #[some "; sold out", none, some "[Data]", some "?", some "3"]

/-- The remarks stand between the paths and the marker of the data. -/
theorem compileAmong_remarks : ∃ output output',
    ({} : Settings).compileAmong [] [] "Stock" grid = .ok output ∧
      ({} : Settings).compileAmong [] [] "Stock" (grid.insertRow 10 remarks) = .ok output' ∧
      output'.className = output.className ∧ output'.code = output.code ∧
      output'.data = output.data ∧ output.data.isSome = true := by
  obtain ⟨output, houtput, hdata⟩ : ∃ output,
      ({} : Settings).compileAmong [] [] "Stock" grid = .ok output ∧ output.data.isSome = true :=
    exists_ok_of_decide _ (by decide +kernel)
  have habove : ∀ above, 10 = above + 1 → isHeaderCell (grid.text? above 0) = false := by
    intro above habove
    obtain rfl : above = 9 := by omega
    decide +kernel
  have hskipped : ∀ dialect, ({} : Settings).dialect = .ok dialect →
      dialect.ignores (remarks[0]?).join = true := by
    intro dialect hdialect
    cases hdialect
    decide +kernel
  obtain ⟨hiff, hsame⟩ := Settings.compileAmong_insertRow (by decide : 10 ≤ grid.height) hskipped
    (by decide +kernel) habove [] [] "Stock"
  obtain ⟨output', houtput'⟩ := hiff.mpr ⟨output, houtput⟩
  obtain ⟨hname, hcode, hdata'⟩ := hsame output output' houtput houtput'
  exact ⟨output, output', houtput, houtput', hname, hcode, hdata', hdata⟩

end Stock
end TypedSheets

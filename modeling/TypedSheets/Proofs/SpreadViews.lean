import TypedSheets.Proofs.ShownBlocks

/-!
# Sheets with rows between

Rows that are skipped may stand anywhere in a sheet but right below a header.  A sheet with
such rows added is the old one spread: each old row has its place among the new ones, in
order, and the rows between them are skipped and open no block.  So its blocks show the old
ones, and its schema is the old one at the new cells, or the same fault is found there.

New rows may be longer than the old ones, so a spread sheet may be wider.  The old rows are
blank in the columns that are added.

## Main definitions

* `View.Spread` — a view whose rows are spread over those of another.

## Main results

* `View.Spread.headerRows`, `View.Spread.blockEnd` — where its blocks stand.
* `View.Spread.shows_band` — **blocks of a spread sheet show the old ones.**
* `Schema.read_spread` — **the schema of a spread sheet.**
-/

namespace TypedSheets

/-! ### Spread views -/

/-- That the rows of a view are spread over those of another one, `move` giving their places
and `f` those of cells: the rows between are skipped and open no block, and none of them is
right below a header. -/
structure View.Spread (dialect : Dialect) (move : Nat → Nat) (f : Cell → Cell)
    (view view' : View) : Prop where
  mono : StrictMono move
  height : view'.height = move view.height
  width : view.width ≤ view'.width
  text : ∀ row col, view'.text? (move row) col = view.text? row col
  cell : ∀ row col, view'.place (move row) col = f (view.place row col)
  between : ∀ row, (∀ old, move old ≠ row) →
    dialect.ignores (view'.text? row 0) = true ∧ isHeaderCell (view'.text? row 0) = false
  below : ∀ row, isHeaderCell (view.text? row 0) = true → move (row + 1) = move row + 1

namespace View.Spread

variable {dialect : Dialect} {move : Nat → Nat} {f : Cell → Cell} {view view' : View}

/-- Rows are picked by their first cells, the rows between never. -/
theorem filter_range' (h : Spread dialect move f view view') {q : Option String → Bool}
    (hq : ∀ cell, dialect.ignores cell = true → isHeaderCell cell = false → q cell = false)
    {start stop start' stop' : Nat} (hstart : ∀ row, start' ≤ move row ↔ start ≤ row)
    (hstop : ∀ row, move row < stop' ↔ row < stop) :
    (List.range' start' (stop' - start')).filter (fun row => q (view'.text? row 0))
      = ((List.range' start (stop - start)).filter fun row => q (view.text? row 0)).map move := by
  refine filter_range'_move h.mono hstart (fun row => by rw [h.text, hstop]) fun row hrow => ?_
  by_contra hnone
  obtain ⟨hskipped, hheader⟩ := h.between row fun old hold => hnone ⟨old, hold⟩
  rw [hq _ hskipped hheader] at hrow
  cases hrow

theorem lt_height (h : Spread dialect move f view view') (row : Nat) :
    move row < view'.height ↔ row < view.height := by
  rw [h.height]
  exact h.mono.lt_iff_lt

/-- The first row that is picked. -/
theorem rowWhere? (h : Spread dialect move f view view') {q : Option String → Bool}
    (hq : ∀ cell, dialect.ignores cell = true → isHeaderCell cell = false → q cell = false)
    {start start' : Nat} (hstart : ∀ row, start' ≤ move row ↔ start ≤ row) :
    view'.rowWhere? start' 0 q = (view.rowWhere? start 0 q).map move := by
  rw [View.rowWhere?, View.rowWhere?, View.rowsFrom, View.rowsFrom, ← List.head?_filter,
    h.filter_range' hq hstart h.lt_height, List.head?_map, List.head?_filter]

/-- The rows after a given one. -/
theorem succ_le (h : Spread dialect move f view view') (row other : Nat) :
    move row + 1 ≤ move other ↔ row + 1 ≤ other :=
  h.mono.lt_iff_lt

/-- The rows after the one below a header. -/
theorem succ_succ_le (h : Spread dialect move f view view') {row : Nat}
    (hbelow : move (row + 1) = move row + 1) (other : Nat) :
    move row + 1 + 1 ≤ move other ↔ row + 1 + 1 ≤ other := by
  rw [← hbelow]
  exact h.succ_le _ _

theorem headerRows (h : Spread dialect move f view view') :
    headerRows dialect view' = (headerRows dialect view).map move := by
  have hzero : ∀ row, 0 ≤ move row ↔ 0 ≤ row := by simp
  have hrows := h.filter_range' (q := isHeaderCell) (fun _ _ hheader => hheader) hzero h.lt_height
  rw [Nat.sub_zero, Nat.sub_zero, ← List.range_eq_range', ← List.range_eq_range'] at hrows
  rw [TypedSheets.headerRows, TypedSheets.headerRows, hrows, List.takeWhile_map]
  simp only [Function.comp_def, h.text]

theorem blockEnd (h : Spread dialect move f view view') (row : Nat) :
    blockEnd view' (move row) = move (blockEnd view row) := by
  rw [TypedSheets.blockEnd, TypedSheets.blockEnd,
    h.rowWhere? (fun _ _ hheader => hheader) (h.succ_le row), h.height]
  cases view.rowWhere? (row + 1) 0 isHeaderCell <;> rfl

/-- The old rows are blank in the columns that are added. -/
theorem text?_of_width_le (h : Spread dialect move f view view') (row : Nat) {col : Nat}
    (hcol : view.width ≤ col) : view'.text? (move row) col = none := by
  rw [h.text, View.text?, if_neg (by omega)]

end View.Spread

/-- The cells of some rows of a view. -/
theorem View.text?_band {view : View} {first stop : Nat} (hstop : stop ≤ view.height)
    (row col : Nat) :
    (view.band first stop).text? row col
      = if first + row < stop then view.text? (first + row) col else none := by
  rw [View.text?, View.text?, View.band, Nat.add_assoc]
  by_cases hrow : first + row < stop
  · rw [if_pos hrow]
    congr 1
    simp only [eq_iff_iff, and_congr_left_iff]
    omega
  · rw [if_neg hrow, if_neg (by simp only; omega)]

/-- **Blocks of a spread sheet show the old ones.**  Their rows are counted from their
headers, right below which no row is added. -/
theorem View.Spread.shows_band {dialect : Dialect} {move : Nat → Nat} {f : Cell → Cell}
    {view view' : View} (h : Spread dialect move f view view') {first stop : Nat}
    (hstop : stop ≤ view.height) (hbelow : move (first + namesRow) = move first + namesRow) :
    (view.band first stop).Shows dialect (fun row => move (first + row) - move first) f
      (view'.band (move first) (move stop)) := by
  have hle : ∀ row, move first ≤ move (first + row) := fun row =>
    h.mono.monotone (Nat.le_add_right first row)
  have hback : ∀ row, move first + (move (first + row) - move first) = move (first + row) :=
    fun row => Nat.add_sub_cancel' (hle row)
  have hstop' : move stop ≤ view'.height := by
    rw [h.height]
    exact h.mono.monotone hstop
  constructor
  case mono =>
    intro a b hlt
    have hmoved := h.mono (Nat.add_lt_add_left hlt first)
    have hfirst := hle a
    show move (first + a) - move first < move (first + b) - move first
    omega
  case header => exact Nat.sub_self _
  case names =>
    show move (first + namesRow) - move first = namesRow
    rw [hbelow, Nat.add_sub_cancel_left]
  case text =>
    intro row col
    rw [View.text?_band hstop', View.text?_band hstop, hback, h.text]
    simp only [h.mono.lt_iff_lt]
  case cell =>
    intro row col
    have hcell := h.cell (first + row) col
    rw [← hback row] at hcell
    simpa only [View.place, View.band, Nat.add_assoc] using hcell
  case filled =>
    intro row hrow
    rw [View.text?_band hstop'] at hrow
    split at hrow
    · by_contra hnone
      -- an old row at this place would be a row of the block
      have hnew : ∀ old, move old ≠ move first + row := by
        intro old hold
        have hold' : first ≤ old := h.mono.le_iff_le.mp (by omega)
        refine hnone ⟨old - first, ?_⟩
        rw [Nat.add_sub_cancel' hold', hold, Nat.add_sub_cancel_left]
      rw [(h.between _ hnew).1] at hrow
      cases hrow
    · cases hrow

/-! ### Schemas -/

section Schemas

variable {dialect : Dialect} {move : Nat → Nat} {f : Cell → Cell} {view view' : View}
  (h : view.Spread dialect move f view')

include h

theorem Block.readAt_spread (kind : BlockKind) {row : Nat}
    (hrow : isHeaderCell (view.text? row 0) = true) :
    Block.readAt dialect view' kind (move row)
      = relocated f (Block.relocate f) (Block.readAt dialect view kind row) := by
  have hrow' : isHeaderCell (view'.text? (move row) 0) = true := by rwa [h.text]
  have hstop := (lt_blockEnd (lt_of_isHeaderCell hrow).1).2
  rw [Block.readAt_eq_read hrow', Block.readAt_eq_read hrow, h.blockEnd]
  exact Block.read_shows (h.shows_band hstop (h.below row hrow)) kind

theorem headerKind_spread (row : Nat) :
    headerKind dialect view' (move row) = relocated f id (headerKind dialect view row) := by
  rw [headerKind, headerKind, h.text, h.cell]
  split
  · rfl
  · rfl

theorem Block.readAll_spread : ∀ (rows : List Nat) (seen : List (BlockKind × Cell)),
    (∀ row ∈ rows, isHeaderCell (view.text? row 0) = true) →
      Block.readAll dialect view' (rows.map move) (seen.map fun entry => (entry.1, f entry.2))
        = relocated f (List.map (Block.relocate f)) (Block.readAll dialect view rows seen) := by
  intro rows
  induction rows with
  | nil => intro seen _; rfl
  | cons row rows ih =>
    intro seen hrows
    rw [List.forall_mem_cons] at hrows
    rw [List.map_cons, Block.readAll, Block.readAll, h.cell, headerKind_spread h]
    refine relocated_bind fun kind _ => ?_
    rw [List.find?_map]
    simp only [id, Function.comp_def]
    -- a second block of one kind is refused with the cell of the first
    cases seen.find? fun entry => entry.1 = kind with
    | some entry => rfl
    | none =>
      simp only [Option.map_none, Block.readAt_spread h kind hrows.1]
      refine relocated_bind fun block _ => ?_
      -- the kinds seen so far are moved along with their cells
      have hrest := ih (if kind.repeats then seen else (kind, view.place row 0) :: seen) hrows.2
      rw [apply_ite (List.map _), List.map_cons] at hrest
      rw [hrest]
      exact relocated_bind fun blocks _ => rfl

/-- **The schema of a spread sheet**: that of the old one at the new cells, or its fault
there. -/
theorem Schema.read_spread (sheet : String) :
    Schema.read dialect sheet view'
      = relocated f (Schema.relocate f) (Schema.read dialect sheet view) := by
  have hrows : ∀ row ∈ headerRows dialect view, isHeaderCell (view.text? row 0) = true := by
    rw [headerRows_eq_openings]
    exact isHeaderCell_of_mem_openings
  have hblocks := Block.readAll_spread h (headerRows dialect view) [] hrows
  rw [List.map_nil, ← h.headerRows] at hblocks
  rw [Schema.read, Schema.read, hblocks]
  exact relocated_bind fun blocks _ => rfl

end Schemas
end TypedSheets

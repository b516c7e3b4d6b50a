import TypedSheets.Grid
import TypedSheets.Proofs.Result

/-!
# Views show the cells of their grid

A cell is counted in three ways: inside a view, inside the sheet, and in the cells of the whole
grid laid out one row after another.  Readers are handed windows of windows and report places of
the sheet, so all of them rest on these counts going together.

A window lies inside the view it is taken from, and so does a window of it; a chain of windows is
inside the view that it starts from, by induction over the chain.  Inside a grid, a row of a view
is a row of the grid and its columns are columns of it, and this is all that the layout needs.

## Main definitions

* `Grid.cells` — the cells of a grid, row after row.
* `View.windows` — a chain of windows, each taken from the one before it.
* `View.Inside` — a view that lies inside another one.

## Main results

* `Grid.text?_ofRows_eq_some_iff` — the cells of a grid made from ragged rows.
* `Grid.getElem?_cells` — **the layout of a grid has its cells in their places.**
* `View.inside_of_windows` — **a chain of windows lies inside the view it starts from.**
* `View.window_window` — a window of a window, taken at once.
* `View.windows_exact` — **views show the cells of their grid.**
-/

namespace TypedSheets

namespace Grid

variable {grid : Grid}

/-! ### Grids -/

theorem width_le_iff {n : Nat} : grid.width ≤ n ↔ ∀ cells ∈ grid.rows.toList, cells.size ≤ n := by
  have hfold : ∀ (rows : List (Array (Option String))) (a : Nat),
      (rows.map Array.size).foldl max a ≤ n ↔ a ≤ n ∧ ∀ cells ∈ rows, cells.size ≤ n := by
    intro rows
    induction rows with
    | nil => simp
    | cons cells rows ih =>
      intro a
      rw [List.map_cons, List.foldl_cons, ih, List.forall_mem_cons, Nat.max_le, and_assoc]
  have hrows := hfold grid.rows.toList 0
  rw [width, ← Array.foldl_toList, Array.toList_map, hrows]
  simp

theorem text?_of_width_le {row col : Nat} (h : grid.width ≤ col) : grid.text? row col = none := by
  rw [text?]
  cases hrow : grid.rows[row]? with
  | none => rfl
  | some cells =>
    have hmem : cells ∈ grid.rows.toList := by
      rw [← Array.getElem?_toList] at hrow
      exact List.mem_of_getElem? hrow
    have hsize := width_le_iff.mp h cells hmem
    rw [Option.bind_some, Array.getElem?_eq_none hsize]
    rfl

/-- The view of a grid has its cells. -/
theorem text?_view (row col : Nat) : grid.view.text? row col = grid.text? row col := by
  rw [View.text?, view, Nat.zero_add, Nat.zero_add]
  split
  · rfl
  · next hout =>
    have hout : ¬(row < grid.rows.size ∧ col < grid.width) := hout
    by_cases hcol : grid.width ≤ col
    · rw [text?_of_width_le hcol]
    · have hrow : grid.rows.size ≤ row := by omega
      rw [text?, Array.getElem?_eq_none hrow]
      rfl

theorem cellOf_eq_some_iff {raw text : String} :
    cellOf raw = some text ↔ raw = text ∧ Text.isBlank text = false := by
  rw [cellOf]
  split
  · next hblank =>
    refine ⟨nofun, ?_⟩
    rintro ⟨rfl, hfilled⟩
    rw [hblank] at hfilled
    cases hfilled
  · next hblank =>
    rw [Option.some.injEq]
    refine ⟨?_, And.left⟩
    rintro rfl
    exact ⟨rfl, Bool.eq_false_iff.mpr hblank⟩

/-- The cells of a grid are the texts of the rows it is made from that are not blank. -/
theorem text?_ofRows_eq_some_iff {rows : List (List String)} {row col : Nat} {text : String} :
    (ofRows rows).text? row col = some text ↔
      ∃ texts, rows[row]? = some texts ∧ texts[col]? = some text ∧ Text.isBlank text = false := by
  simp only [text?, ofRows, List.getElem?_toArray, List.getElem?_map, Option.bind_map,
    Option.bind_eq_some_iff, Function.comp_apply, Option.join_eq_some_iff, Option.map_eq_some_iff,
    cellOf_eq_some_iff]
  constructor
  · rintro ⟨texts, htexts, raw, hraw, rfl, hblank⟩
    exact ⟨texts, htexts, hraw, hblank⟩
  · rintro ⟨texts, htexts, htext, hblank⟩
    exact ⟨texts, htexts, text, htext, rfl, hblank⟩

/-! ### The layout of a grid -/

/-- A row of cells, filled up with blanks. -/
def filledRow (width : Nat) (row : Array (Option String)) : List (Option String) :=
  row.toList ++ List.replicate (width - row.size) none

/-- The cells of a grid, row after row, short rows filled up with blanks. -/
def cells (grid : Grid) : List (Option String) :=
  grid.rows.toList.flatMap (filledRow grid.width)

theorem length_filledRow {row : Array (Option String)} (h : row ∈ grid.rows.toList) :
    (filledRow grid.width row).length = grid.width := by
  have hsize := width_le_iff.mp (Nat.le_refl grid.width) row h
  rw [filledRow, List.length_append, Array.length_toList, List.length_replicate]
  omega

theorem getElem?_filledRow {row : Array (Option String)} {width col : Nat} (h : col < width) :
    (filledRow width row)[col]? = some (row[col]?).join := by
  rw [filledRow]
  rcases Nat.lt_or_ge col row.size with hlt | hge
  · rw [List.getElem?_append_left (by simpa using hlt), Array.getElem?_toList,
      Array.getElem?_eq_getElem hlt]
    rfl
  · rw [List.getElem?_append_right (by simpa using hge), List.getElem?_replicate,
      if_pos (by rw [Array.length_toList]; omega), Array.getElem?_eq_none hge]
    rfl

/-- Places in lists of one length, one after another. -/
theorem getElem?_flatMap_of_length {α β : Type} {f : α → List β} {n j : Nat} (hj : j < n) :
    ∀ {xs : List α}, (∀ x ∈ xs, (f x).length = n) → ∀ i : Nat,
      (xs.flatMap f)[i * n + j]? = xs[i]?.bind fun x => (f x)[j]? := by
  intro xs
  induction xs with
  | nil => intro _ i; simp
  | cons x xs ih =>
    intro hlength i
    rw [List.forall_mem_cons] at hlength
    rw [List.flatMap_cons]
    cases i with
    | zero =>
      rw [Nat.zero_mul, Nat.zero_add, List.getElem?_append_left (by omega)]
      rfl
    | succ i =>
      -- the first list takes up `n` places
      have hplace : (i + 1) * n + j = (f x).length + (i * n + j) := by
        rw [hlength.1, Nat.succ_mul]
        omega
      rw [hplace, List.getElem?_append_right (Nat.le_add_right _ _), Nat.add_sub_cancel_left,
        ih hlength.2, List.getElem?_cons_succ]

theorem length_cells : grid.cells.length = grid.height * grid.width := by
  have hlengths : grid.rows.toList.map (fun row => (filledRow grid.width row).length)
      = grid.rows.toList.map fun _ => grid.width :=
    List.map_congr_left fun _ => length_filledRow
  rw [cells, List.length_flatMap, hlengths, List.map_const', List.sum_replicate_nat,
    Array.length_toList]
  rfl

/-- **The layout of a grid has its cells in their places.** -/
theorem getElem?_cells {row col : Nat} (hrow : row < grid.height) (hcol : col < grid.width) :
    grid.cells[row * grid.width + col]? = some (grid.text? row col) := by
  have hsize : row < grid.rows.size := hrow
  rw [cells, getElem?_flatMap_of_length hcol fun _ => length_filledRow, text?,
    Array.getElem?_toList, Array.getElem?_eq_getElem hsize, Option.bind_some, Option.bind_some,
    getElem?_filledRow hcol]

end Grid

namespace View

/-! ### One window -/

/-- A window fits if its range is not inverted and ends inside the view. -/
theorem window_eq_ok_iff {view sub : View} {r0 c0 r1 c1 : Nat} :
    view.window r0 c0 r1 c1 = .ok sub ↔
      (r0 ≤ r1 ∧ c0 ≤ c1 ∧ r1 < view.height ∧ c1 < view.width) ∧
        sub = ⟨view.grid, view.top + r0, view.left + c0, r1 - r0 + 1, c1 - c0 + 1⟩ := by
  rw [window]
  split
  · next hout =>
    refine ⟨nofun, fun h => ?_⟩
    omega
  · next hin =>
    rw [Except.ok.injEq]
    refine ⟨fun h => ⟨by omega, h.symm⟩, fun h => h.2.symm⟩

theorem window_eq_error_iff {view : View} {r0 c0 r1 c1 : Nat} {e : RangeError} :
    view.window r0 c0 r1 c1 = .error e ↔
      (r1 < r0 ∨ c1 < c0 ∨ view.height ≤ r1 ∨ view.width ≤ c1) ∧
        e = ⟨⟨r0, c0⟩, ⟨r1, c1⟩, view.height, view.width⟩ := by
  rw [window]
  split
  · next hout =>
    rw [Except.error.injEq]
    exact ⟨fun h => ⟨hout, h.symm⟩, fun h => h.2.symm⟩
  · next hin => exact ⟨nofun, fun h => absurd h.1 hin⟩

/-- A window of a window is one of the view itself, with the corners added. -/
theorem window_window {view sub inner : View} {r0 c0 r1 c1 a b c d : Nat}
    (hsub : view.window r0 c0 r1 c1 = .ok sub) :
    sub.window a b c d = .ok inner ↔
      (c < sub.height ∧ d < sub.width) ∧
        view.window (r0 + a) (c0 + b) (r0 + c) (c0 + d) = .ok inner := by
  obtain ⟨hfits, rfl⟩ := window_eq_ok_iff.mp hsub
  rw [window_eq_ok_iff, window_eq_ok_iff]
  -- both have the same extent; that the outer one fits follows from the inner one
  have hheight : r0 + c - (r0 + a) + 1 = c - a + 1 := by omega
  have hwidth : c0 + d - (c0 + b) + 1 = d - b + 1 := by omega
  simp only [hheight, hwidth, Nat.add_assoc]
  constructor
  · rintro ⟨hinner, rfl⟩
    exact ⟨⟨by omega, by omega⟩, by omega, rfl⟩
  · rintro ⟨hinside, hinner, rfl⟩
    exact ⟨by omega, rfl⟩

/-! ### Chains of windows -/

/-- A chain of windows, each from a first to a last cell of the one before it. -/
def windows (view : View) (ranges : List (Cell × Cell)) : Except RangeError View :=
  ranges.foldlM
    (fun outer range => outer.window range.1.row range.1.col range.2.row range.2.col) view

/-- A view that lies inside another one of the same grid. -/
structure Inside (view outer : View) : Prop where
  grid : view.grid = outer.grid
  top : outer.top ≤ view.top
  left : outer.left ≤ view.left
  bottom : view.top + view.height ≤ outer.top + outer.height
  right : view.left + view.width ≤ outer.left + outer.width

namespace Inside

theorem refl (view : View) : view.Inside view := by
  constructor <;> simp

theorem trans {view middle outer : View} (h : view.Inside middle) (houter : middle.Inside outer) :
    view.Inside outer where
  grid := h.grid.trans houter.grid
  top := Nat.le_trans houter.top h.top
  left := Nat.le_trans houter.left h.left
  bottom := Nat.le_trans h.bottom houter.bottom
  right := Nat.le_trans h.right houter.right

/-- A cell of a view inside another one is the cell of that one at the same place. -/
theorem text?_eq {view outer : View} (h : view.Inside outer) {row col : Nat}
    (hrow : row < view.height) (hcol : col < view.width) :
    view.text? row col
      = outer.text? (view.top + row - outer.top) (view.left + col - outer.left) := by
  have htop := h.top
  have hleft := h.left
  have hbottom := h.bottom
  have hright := h.right
  rw [text?, text?, if_pos ⟨hrow, hcol⟩, if_pos ⟨by omega, by omega⟩, h.grid,
    Nat.add_sub_cancel' (by omega), Nat.add_sub_cancel' (by omega)]

end Inside

/-- One window. -/
theorem inside_of_window {view sub : View} {r0 c0 r1 c1 : Nat}
    (h : view.window r0 c0 r1 c1 = .ok sub) : sub.Inside view := by
  obtain ⟨hfits, rfl⟩ := window_eq_ok_iff.mp h
  constructor
  · rfl
  · exact Nat.le_add_right _ _
  · exact Nat.le_add_right _ _
  · simp only
    omega
  · simp only
    omega

/-- **A chain of windows lies inside the view it starts from.** -/
theorem inside_of_windows {ranges : List (Cell × Cell)} : ∀ {view sub : View},
    view.windows ranges = .ok sub → sub.Inside view := by
  induction ranges with
  | nil =>
    intro view sub h
    cases h
    exact .refl view
  | cons range ranges ih =>
    intro view sub h
    rw [windows, List.foldlM_cons] at h
    obtain ⟨middle, hmiddle, h⟩ := bind_eq_ok.mp h
    exact (ih h).trans (inside_of_window hmiddle)

/-- **Views show the cells of their grid.**  The cells of a grid made from rows are their texts
that are not blank.  Every chain of windows taken from the whole of a grid ends in a view that
lies inside the grid and shows, at each place of its extent, the cell of the whole grid there,
also in its layout row after row; outside its extent it shows nothing.  A further window is
refused exactly if its range is inverted or ends outside, and two further windows are one with
the corners added. -/
theorem windows_exact :
    (∀ (rows : List (List String)) (row col : Nat) (text : String),
      (Grid.ofRows rows).view.text? row col = some text ↔
        ∃ texts, rows[row]? = some texts ∧ texts[col]? = some text ∧
          Text.isBlank text = false) ∧
    ∀ (grid : Grid) (ranges : List (Cell × Cell)) (view : View),
      grid.view.windows ranges = .ok view →
      view.grid = grid ∧
      (view.top + view.height ≤ grid.height ∧ view.left + view.width ≤ grid.width) ∧
      grid.cells.length = grid.height * grid.width ∧
      (∀ row col, row < view.height → col < view.width →
        view.text? row col = grid.view.text? (view.place row col).row (view.place row col).col ∧
        grid.cells[(view.place row col).row * grid.width + (view.place row col).col]?
          = some (view.text? row col)) ∧
      (∀ row col, view.height ≤ row ∨ view.width ≤ col → view.text? row col = none) ∧
      (∀ r0 c0 r1 c1 e, view.window r0 c0 r1 c1 = .error e ↔
        (r1 < r0 ∨ c1 < c0 ∨ view.height ≤ r1 ∨ view.width ≤ c1) ∧
          e = ⟨⟨r0, c0⟩, ⟨r1, c1⟩, view.height, view.width⟩) ∧
      ∀ r0 c0 r1 c1 sub, view.window r0 c0 r1 c1 = .ok sub → ∀ a b c d inner,
        sub.window a b c d = .ok inner ↔
          (c < sub.height ∧ d < sub.width) ∧
            view.window (r0 + a) (c0 + b) (r0 + c) (c0 + d) = .ok inner := by
  refine ⟨?_, ?_⟩
  · intro rows row col text
    rw [Grid.text?_view, Grid.text?_ofRows_eq_some_iff]
  · intro grid ranges view h
    -- windows of windows stay inside the grid, which gives all the rest
    have hinside := inside_of_windows h
    have hbottom : view.top + view.height ≤ grid.height := by
      simpa [Grid.view] using hinside.bottom
    have hright : view.left + view.width ≤ grid.width := by
      simpa [Grid.view] using hinside.right
    refine ⟨hinside.grid, ⟨hbottom, hright⟩, Grid.length_cells, ?_, ?_, ?_, ?_⟩
    · intro row col hrow hcol
      have htext : view.text? row col = grid.view.text? (view.top + row) (view.left + col) :=
        hinside.text?_eq hrow hcol
      refine ⟨htext, ?_⟩
      rw [htext, Grid.text?_view]
      exact Grid.getElem?_cells (by simp only [place]; omega) (by simp only [place]; omega)
    · intro row col hout
      rw [text?, if_neg (by omega)]
    · intro r0 c0 r1 c1 e
      exact window_eq_error_iff
    · intro r0 c0 r1 c1 sub hsub a b c d inner
      exact window_window hsub

end View

namespace Ragged

def grid : Grid := .ofRows [["a", "b", "c"], ["d", "", "f"], ["g", "h"], ["  ", "k", "l"]]

/-- The last two columns of the last three rows, by way of all columns of these rows. -/
def part : View := ⟨grid, 1, 1, 3, 2⟩

/-- A cell two windows deep, one that is missing from its row, and a window that does not fit. -/
theorem windows_exact_part :
    grid.view.windows [(⟨1, 0⟩, ⟨3, 2⟩), (⟨0, 1⟩, ⟨2, 2⟩)] = .ok part ∧
      part.text? 2 1 = grid.view.text? 3 2 ∧
      grid.cells[3 * grid.width + 2]? = some (part.text? 2 1) ∧
      grid.cells[2 * grid.width + 2]? = some (part.text? 1 1) ∧ part.text? 1 1 = none ∧
      ∃ e, part.window 0 0 1 2 = .error e := by
  have hpart : grid.view.windows [(⟨1, 0⟩, ⟨3, 2⟩), (⟨0, 1⟩, ⟨2, 2⟩)] = .ok part := by
    decide +kernel
  obtain ⟨-, -, -, hcells, -, hrefused, -⟩ := View.windows_exact.2 grid _ part hpart
  obtain ⟨hcell, hplace⟩ := hcells 2 1 (by decide) (by decide)
  obtain ⟨-, hmissing⟩ := hcells 1 1 (by decide) (by decide)
  exact ⟨hpart, hcell, hplace, hmissing, by decide +kernel,
    _, (hrefused 0 0 1 2 _).mpr ⟨by decide, rfl⟩⟩

end Ragged
end TypedSheets

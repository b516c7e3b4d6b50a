import Mathlib.Data.List.TakeWhile
import TypedSheets.Proofs.IgnoredRows

/-!
# The schema part of a sheet

A schema is read from the rows above the data part of a sheet.  The data part may be wider
than these rows and makes the whole sheet wider, so that blocks are read from rectangles with
more columns; the first of its rows ends the last block, as the end of the sheet would.  None
of this shows: a block is read from its texts and their places, and rows and columns that are
blank to the end are as good as none.

So two sheets that agree above the data part have the same header rows, below each of which
they show the same, whatever the extents of their blocks.

## Main definitions

* `Grid.SameAbove` — grids with the same texts in the rows above a given one.

## Main results

* `headerRows_eq_takeWhile`, `View.shows_blocks` — the header rows and their blocks are told
  by the rows above the data part.
* `Schema.read_sameAbove` — **the schema does not depend on the data part.**
-/

namespace TypedSheets

/-! ### Sheets with the same schema part -/

/-- That two grids have the same texts in all rows above a given one.  What a row leaves out
at its end is blank, and so is a row that a grid does not have. -/
def Grid.SameAbove (m : Nat) (grid grid' : Grid) : Prop :=
  ∀ row < m, ∀ col, grid'.text? row col = grid.text? row col

/-- Past the longest rows of both there is nothing to compare. -/
theorem Grid.sameAbove_iff {m : Nat} {grid grid' : Grid} :
    Grid.SameAbove m grid grid' ↔
      ∀ row < m, ∀ col < max grid.width grid'.width, grid'.text? row col = grid.text? row col := by
  refine forall₂_congr fun row _ => ⟨fun h col _ => h col, fun h col => ?_⟩
  by_cases hcol : col < max grid.width grid'.width
  · exact h col hcol
  · rw [text?_of_width_le (by omega), text?_of_width_le (by omega)]

instance (m : Nat) (grid grid' : Grid) : Decidable (Grid.SameAbove m grid grid') :=
  decidable_of_iff _ Grid.sameAbove_iff.symm

/-- Where the schema part ends, if it does so by a given row: at a marker of data in that row,
or before it at the end of the sheet. -/
theorem height_le_or_isDataHeader {dialect : Dialect} {view : View} {m : Nat}
    (hend : schemaEnd dialect view = m ∨ view.height ≤ m) :
    view.height ≤ m ∨ m < view.height ∧ isDataHeader dialect (view.text? m 0) = true := by
  rcases hend with rfl | hend
  · rcases (schemaEnd_spec dialect view).2 with hheight | hmarked
    · exact Or.inl (Nat.le_of_eq hheight.symm)
    · exact Or.inr hmarked
  · exact Or.inl hend

/-- The scan for headers needs no row from the end of the schema part on. -/
theorem headerRows_eq_takeWhile {dialect : Dialect} {view : View} {m : Nat}
    (hend : schemaEnd dialect view = m ∨ view.height ≤ m) :
    headerRows dialect view
      = ((List.range m).filter fun row => isHeaderCell (view.text? row 0)).takeWhile fun row =>
          !isDataHeader dialect (view.text? row 0) := by
  rcases hend with rfl | hheight
  · -- no header row is passed by on the way to the marker
    rw [headerRows_eq_openings, openings, eq_comm, List.takeWhile_eq_self_iff]
    intro row hrow
    have habove := List.mem_range.mp (List.mem_filter.mp hrow).1
    rw [(schemaEnd_spec dialect view).1 row habove]
    rfl
  · -- rows past the end of the sheet are no headers
    have hnone : (List.range' view.height (m - view.height)).filter
        (fun row => isHeaderCell (view.text? row 0)) = [] := by
      refine List.filter_eq_nil_iff.mpr fun row hrow hheader => ?_
      have hinside := (lt_of_isHeaderCell hheader).1
      have hout := (List.mem_range'_1.mp hrow).1
      omega
    rw [headerRows, range_append_range' hheight, List.filter_append, hnone, List.append_nil]

/-- The rows of a block: those before the next header. -/
theorem lt_blockEnd_iff {view : View} {row next : Nat} :
    next < blockEnd view row ↔ next < view.height ∧
      ∀ k, row < k → k ≤ next → isHeaderCell (view.text? k 0) = false := by
  rw [blockEnd, View.rowWhere?, View.rowsFrom]
  cases hfind : (List.range' (row + 1) (view.height - (row + 1))).find? fun row =>
      isHeaderCell (view.text? row 0) with
  | none =>
    rw [List.find?_eq_none] at hfind
    rw [Option.getD_none]
    refine ⟨fun hnext => ⟨hnext, fun k hlow hhigh => ?_⟩, fun h => h.1⟩
    exact Bool.eq_false_iff.mpr (hfind k (List.mem_range'_1.mpr (by omega)))
  | some found =>
    rw [List.find?_range'_eq_some] at hfind
    obtain ⟨hheader, hmem, hbefore⟩ := hfind
    have hbounds := List.mem_range'_1.mp hmem
    rw [Option.getD_some]
    constructor
    · intro hnext
      refine ⟨by omega, fun k hlow hhigh => ?_⟩
      simpa using hbefore k (by omega) (by omega)
    · rintro ⟨-, hplain⟩
      -- past the end there is a header, which was ruled out
      by_contra hle
      rw [hplain found (by omega) (by omega)] at hheader
      cases hheader

/-- A block shows the rows below its header up to the next one, as long as they are rows of
the schema part. -/
theorem View.text?_block {dialect : Dialect} {view : View} {m row : Nat}
    (hend : schemaEnd dialect view = m ∨ view.height ≤ m) (hrow : row < m)
    (hheader : isHeaderCell (view.text? row 0) = true) (below col : Nat) :
    (view.band row (blockEnd view row)).text? below col
      = if row + below < m ∧
            ∀ k, k < m → row < k → k ≤ row + below → isHeaderCell (view.text? k 0) = false
        then view.text? (row + below) col else none := by
  have hlt := lt_of_isHeaderCell hheader
  rw [View.text?_band (lt_blockEnd hlt.1).2]
  by_cases hinside : row + below < blockEnd view row
  · obtain ⟨hheight, hplain⟩ := lt_blockEnd_iff.mp hinside
    rw [if_pos hinside, if_pos]
    refine ⟨?_, fun k _ => hplain k⟩
    rcases height_le_or_isDataHeader hend with hpast | ⟨-, hmarked⟩
    · omega
    · -- otherwise the marker would be one of the rows without a header
      by_contra hle
      have hmark := hplain m hrow (by omega)
      rw [isHeaderCell_of_isDataHeader hmarked] at hmark
      cases hmark
  · rw [if_neg hinside]
    split
    · next hshown =>
      -- such a row is past the end of the sheet, and blank
      have hout : view.height ≤ row + below := by
        by_contra hheight
        exact hinside (lt_blockEnd_iff.mpr
          ⟨by omega, fun k hlow hhigh => hshown.2 k (by omega) hlow hhigh⟩)
      rw [View.text?, if_neg (by omega)]
    · rfl

/-- Tests that agree on the elements of a list stop at the same one. -/
theorem takeWhile_congr {α : Type} {p q : α → Bool} :
    ∀ {elements : List α}, (∀ element ∈ elements, p element = q element) →
      elements.takeWhile p = elements.takeWhile q
  | [], _ => rfl
  | element :: elements, h => by
    rw [List.forall_mem_cons] at h
    rw [List.takeWhile_cons, List.takeWhile_cons, h.1, takeWhile_congr h.2]

section SameAbove

variable {dialect : Dialect} {grid grid' : Grid} {m : Nat} (h : Grid.SameAbove m grid grid')

include h

theorem Grid.SameAbove.text?_view {row : Nat} (hrow : row < m) (col : Nat) :
    grid'.view.text? row col = grid.view.text? row col := by
  rw [Grid.text?_view, Grid.text?_view, h row hrow]

variable (hend : schemaEnd dialect grid.view = m ∨ grid.height ≤ m)
  (hend' : schemaEnd dialect grid'.view = m ∨ grid'.height ≤ m)

include hend hend'

/-- Both sheets have their headers in the same rows. -/
theorem headerRows_sameAbove : headerRows dialect grid'.view = headerRows dialect grid.view := by
  rw [headerRows_eq_takeWhile hend, headerRows_eq_takeWhile hend']
  have hrows : ((List.range m).filter fun row => isHeaderCell (grid'.view.text? row 0))
      = (List.range m).filter fun row => isHeaderCell (grid.view.text? row 0) := by
    refine List.filter_congr fun row hrow => ?_
    rw [h.text?_view (List.mem_range.mp hrow)]
  rw [hrows]
  refine takeWhile_congr fun row hrow => ?_
  have habove : row < m := List.mem_range.mp (List.mem_filter.mp hrow).1
  rw [h.text?_view habove]

/-- **Below a header, both sheets show the same.** -/
theorem View.shows_blocks {row : Nat} (hrow : row < m)
    (hheader : isHeaderCell (grid.view.text? row 0) = true) :
    (grid.view.band row (blockEnd grid.view row)).Shows dialect id id
      (grid'.view.band row (blockEnd grid'.view row)) := by
  have hheader' : isHeaderCell (grid'.view.text? row 0) = true := by rwa [h.text?_view hrow]
  refine ⟨strictMono_id, rfl, rfl, fun below col => ?_, fun _ _ => rfl, fun row _ => ⟨row, rfl⟩⟩
  rw [id, View.text?_block hend hrow hheader, View.text?_block hend' hrow hheader']
  -- only rows above the data part are asked for, also for headers
  have hplain : (∀ k, k < m → row < k → k ≤ row + below →
        isHeaderCell (grid'.view.text? k 0) = false)
      ↔ ∀ k, k < m → row < k → k ≤ row + below → isHeaderCell (grid.view.text? k 0) = false :=
    forall₂_congr fun k hk => by rw [h.text?_view hk]
  simp only [hplain]
  by_cases hbelow : row + below < m
  · rw [h.text?_view hbelow]
  · rw [if_neg fun hshown => hbelow hshown.1, if_neg fun hshown => hbelow hshown.1]

/-- The blocks of header rows above the data part are read alike. -/
theorem Block.readAll_sameAbove :
    ∀ (rows : List Nat), (∀ row ∈ rows, row < m ∧ isHeaderCell (grid.view.text? row 0) = true) →
      ∀ seen, Block.readAll dialect grid'.view rows seen = Block.readAll dialect grid.view rows seen
  | [], _, _ => rfl
  | row :: rows, hrows, seen => by
    rw [List.forall_mem_cons] at hrows
    obtain ⟨⟨habove, hheader⟩, hrows⟩ := hrows
    have hheader' : isHeaderCell (grid'.view.text? row 0) = true := by rwa [h.text?_view habove]
    have hkind : headerKind dialect grid'.view row = headerKind dialect grid.view row := by
      rw [headerKind, headerKind, h.text?_view habove]
      rfl
    -- a block ends above the data part, so both grids show the same block
    have hblock : ∀ kind, Block.readAt dialect grid'.view kind row
        = Block.readAt dialect grid.view kind row := by
      intro kind
      rw [Block.readAt_eq_read hheader, Block.readAt_eq_read hheader',
        Block.read_shows (View.shows_blocks h hend hend' habove hheader),
        relocated_id Block.relocate_id]
    have hplace : grid'.view.place row 0 = grid.view.place row 0 := rfl
    simp only [Block.readAll, hkind, hblock, hplace, Block.readAll_sameAbove rows hrows]

end SameAbove

/-- **The schema does not depend on the data part.**  Two sheets with the same texts above a
row, which in each of them is the first marker of data or past the end of the sheet, have the
same schema, with all its cells, or the same fault.  Neither the rest of the rows nor the
width that it gives the sheet shows. -/
theorem Schema.read_sameAbove {dialect : Dialect} {grid grid' : Grid} {m : Nat}
    (h : Grid.SameAbove m grid grid')
    (hend : schemaEnd dialect grid.view = m ∨ grid.height ≤ m)
    (hend' : schemaEnd dialect grid'.view = m ∨ grid'.height ≤ m) (sheet : String) :
    Schema.read dialect sheet grid'.view = Schema.read dialect sheet grid.view := by
  have hrows : ∀ row ∈ headerRows dialect grid.view,
      row < m ∧ isHeaderCell (grid.view.text? row 0) = true := by
    intro row hrow
    rw [headerRows_eq_takeWhile hend] at hrow
    have hmem := List.mem_filter.mp ((List.takeWhile_sublist _).subset hrow)
    exact ⟨List.mem_range.mp hmem.1, hmem.2⟩
  rw [Schema.read, Schema.read, headerRows_sameAbove h hend hend',
    Block.readAll_sameAbove h hend hend' _ hrows]

/-! ### A shelf without its data -/

namespace Shelf

/-- The declarations of the shelf alone. -/
def bare : Grid := ⟨declared.toArray⟩

/-- The declarations, followed by rows that reach further to the right than they do. -/
def wide : Grid := ⟨(declared ++ [
  #[some "[Data]", none, none, none, some "far"],
  #[some "[Enum]", some "Late", some "", some "x", some "y", some "z"]]).toArray⟩

/-- The shelf with two designs, followed by its data. -/
def clashWide : Grid := ⟨(declared ++ [
  #[some "[Design]"], #[some "Name"], #[some "[Name]", none, none, none, some "Id"]]).toArray⟩

/-- The shelf has one schema, whatever follows its declarations; and one fault, if it has two
designs. -/
theorem read_sameAbove_shelf :
    (∃ schema, Schema.read default "Shelf" grid.view = .ok schema ∧
      Schema.read default "Shelf" bare.view = .ok schema ∧
      Schema.read default "Shelf" wide.view = .ok schema) ∧
    ∃ fault, Schema.read default "Shelf" clash.view = .error fault ∧
      Schema.read default "Shelf" clashWide.view = .error fault := by
  have hbare : Grid.SameAbove 7 grid bare := by decide +kernel
  have hwide : Grid.SameAbove 7 grid wide := by decide +kernel
  have hclash : Grid.SameAbove 9 clash clashWide := by decide +kernel
  have hend : schemaEnd default grid.view = 7 := by decide +kernel
  constructor
  · obtain ⟨schema, hschema⟩ : ∃ schema, Schema.read default "Shelf" grid.view = .ok schema :=
      exists_ok_of_isOk (by decide +kernel)
    refine ⟨schema, hschema, ?_, ?_⟩
    · rw [Schema.read_sameAbove hbare (Or.inl hend) (Or.inr (by decide)), hschema]
    · rw [Schema.read_sameAbove hwide (Or.inl hend) (Or.inl (by decide +kernel)), hschema]
  · obtain ⟨fault, hfault, -⟩ : ∃ fault,
        Schema.read default "Shelf" clash.view = .error fault ∧
          fault.diagnostic.code = some .e101 :=
      exists_error_of_decide _ (by decide +kernel)
    refine ⟨fault, hfault, ?_⟩
    rw [Schema.read_sameAbove hclash (Or.inr (by decide)) (Or.inl (by decide +kernel)), hfault]

end Shelf
end TypedSheets

import Mathlib.Data.List.Sort
import TypedSheets.Data.Layout
import TypedSheets.Proofs.Result

/-!
# Where the data of a sheet lies

The data section is found by searches from the design downwards: for the `Name` marker, below the
paths for the `Data` marker, before it for rows that should not be there, and after it for the
data rows.  Each search starts where another one ended, and a start that is off by one would drop
a row without a fault.

Here the section is described by its rows alone.  Whichever way the markers are used, the filled
rows below the paths are all accounted for: each of them is a data row, or it is the one `Data`
marker.

## Main definitions

* `DataLayout.IsMarker`, `DataLayout.IsFilled` — the rows that count.
* `DataLayout.FirstMarker` — the first row with a marker from some row on.
* `DataLayout.Located` — a data section, by its rows.
* `DataLayout.Refused` — what is wrong where there is none.

## Main results

* `DataLayout.located_or_refused` — a search ends with one or the other.
* `DataLayout.find_of_located`, `DataLayout.find_of_refused` — and with no other.
* `DataLayout.find_exact` — **the data section is found where it lies.**
-/

namespace TypedSheets
namespace DataLayout

section Rows

variable (dialect : Dialect) (view : View)

/-- A row that is tagged with a marker. -/
def IsMarker (marker : String) (row : Nat) : Prop :=
  row < view.height ∧ dialect.tag? (view.text? row 0) = some marker

/-- A row that is not skipped. -/
def IsFilled (row : Nat) : Prop :=
  row < view.height ∧ dialect.ignores (view.text? row 0) = false

/-- The first row from `start` on that is tagged with a marker. -/
structure FirstMarker (marker : String) (start row : Nat) : Prop where
  start_le : start ≤ row
  isMarker : IsMarker dialect view marker row
  first : ∀ earlier, start ≤ earlier → earlier < row → ¬ IsMarker dialect view marker earlier

/-- The data section below a design, by its rows. -/
structure Located (design : Cell) (layout : DataLayout) : Prop where
  /-- The paths are right below the first `Name` marker. -/
  name : ∃ nameRow, FirstMarker dialect view nameMarker design.row nameRow ∧
    layout.pathRow = nameRow + 1
  path : layout.pathRow < view.height
  ordered : layout.rows.Pairwise (· < ·)
  /-- Data rows are filled rows below the paths. -/
  filled : ∀ row ∈ layout.rows, layout.pathRow < row ∧ IsFilled dialect view row
  /-- No other row below the paths is filled, except the first `Data` marker. -/
  complete : ∀ row, layout.pathRow < row → IsFilled dialect view row →
    row ∈ layout.rows ∨ dialect.usesDataMarker = true ∧
      FirstMarker dialect view dataMarker (layout.pathRow + 1) row
  /-- If `Data` markers are used, the first one is above the data rows. -/
  marked : dialect.usesDataMarker = true →
    ∃ dataRow, FirstMarker dialect view dataMarker (layout.pathRow + 1) dataRow ∧
      ∀ row ∈ layout.rows, dataRow < row
  /-- If they are not used, there is none. -/
  unmarked : dialect.usesDataMarker = false →
    ∀ row, layout.pathRow < row → ¬ IsMarker dialect view dataMarker row

/-- What is wrong where there is no data section, by the code of the fault. -/
inductive Refused (design : Cell) : FaultCode → Prop
  /-- No row from the design on is tagged `Name`. -/
  | noName (hname : ∀ row, design.row ≤ row → ¬ IsMarker dialect view nameMarker row) :
      Refused design .e300
  /-- The first `Name` marker is the last row. -/
  | noPath {nameRow : Nat} (hname : FirstMarker dialect view nameMarker design.row nameRow)
      (hpath : view.height ≤ nameRow + 1) : Refused design .e300
  /-- `Data` markers are used, and there is none below the paths. -/
  | noData {nameRow : Nat} (hname : FirstMarker dialect view nameMarker design.row nameRow)
      (huses : dialect.usesDataMarker = true)
      (hdata : ∀ row, nameRow + 1 < row → ¬ IsMarker dialect view dataMarker row) :
      Refused design .e300
  /-- `Data` markers are used, and a filled row is between the paths and the first one. -/
  | stray {nameRow dataRow stray : Nat}
      (hname : FirstMarker dialect view nameMarker design.row nameRow)
      (huses : dialect.usesDataMarker = true)
      (hdata : FirstMarker dialect view dataMarker (nameRow + 2) dataRow)
      (hbelow : nameRow + 1 < stray) (habove : stray < dataRow)
      (hfilled : IsFilled dialect view stray) : Refused design .e305
  /-- `Data` markers are not used, and there is one below the paths. -/
  | unexpected {nameRow dataRow : Nat}
      (hname : FirstMarker dialect view nameMarker design.row nameRow)
      (huses : dialect.usesDataMarker = false) (hbelow : nameRow + 1 < dataRow)
      (hdata : IsMarker dialect view dataMarker dataRow) : Refused design .e305

end Rows

variable {dialect : Dialect} {view : View} {design : Cell}

/-! ### The searches -/

theorem markerRow?_eq_some_iff {marker : String} {start row : Nat} :
    markerRow? dialect view start marker = some row ↔
      FirstMarker dialect view marker start row := by
  rw [markerRow?, View.rowWhere?, View.rowsFrom, List.find?_range'_eq_some, List.mem_range'_1]
  constructor
  · rintro ⟨hmarked, ⟨hstart, hlt⟩, hfirst⟩
    refine ⟨hstart, ⟨by omega, of_decide_eq_true hmarked⟩, ?_⟩
    intro earlier hearlier hbefore hmarker
    simpa [hmarker.2] using hfirst earlier hearlier hbefore
  · rintro ⟨hstart, ⟨hlt, hmarked⟩, hfirst⟩
    refine ⟨decide_eq_true hmarked, ⟨hstart, by omega⟩, ?_⟩
    intro earlier hearlier hbefore
    have hnot : dialect.tag? (view.text? earlier 0) ≠ some marker :=
      fun hmarker => hfirst earlier hearlier hbefore ⟨by omega, hmarker⟩
    simpa using hnot

theorem markerRow?_eq_none_iff {marker : String} {start : Nat} :
    markerRow? dialect view start marker = none ↔
      ∀ row, start ≤ row → ¬ IsMarker dialect view marker row := by
  rw [markerRow?, View.rowWhere?, View.rowsFrom, List.find?_eq_none]
  constructor
  · intro h row hstart hmarker
    have hlt := hmarker.1
    exact h row (List.mem_range'_1.mpr ⟨hstart, by omega⟩) (decide_eq_true hmarker.2)
  · intro h row hrow hmarker
    obtain ⟨hstart, hlt⟩ := List.mem_range'_1.mp hrow
    exact h row hstart ⟨by omega, of_decide_eq_true hmarker⟩

/-- From any row with a marker on, there is a first one. -/
theorem IsMarker.exists_first {marker : String} {start row : Nat}
    (h : IsMarker dialect view marker row) (hstart : start ≤ row) :
    ∃ first, FirstMarker dialect view marker start first := by
  cases hfind : markerRow? dialect view start marker with
  | none => exact absurd h (markerRow?_eq_none_iff.mp hfind row hstart)
  | some first => exact ⟨first, markerRow?_eq_some_iff.mp hfind⟩

theorem FirstMarker.unique {marker : String} {start row other : Nat}
    (h : FirstMarker dialect view marker start row)
    (hother : FirstMarker dialect view marker start other) : row = other :=
  Option.some.inj ((markerRow?_eq_some_iff.mpr h).symm.trans (markerRow?_eq_some_iff.mpr hother))

theorem mem_filledRows {start stop row : Nat} :
    row ∈ filledRows dialect view start stop ↔
      start ≤ row ∧ row < stop ∧ dialect.ignores (view.text? row 0) = false := by
  rw [filledRows, List.mem_filter, List.mem_range'_1, Bool.not_eq_true']
  constructor
  · rintro ⟨⟨hstart, hstop⟩, hrow⟩
    exact ⟨hstart, by omega, hrow⟩
  · rintro ⟨hstart, hstop, hrow⟩
    exact ⟨⟨hstart, by omega⟩, hrow⟩

theorem pairwise_filledRows (start stop : Nat) :
    (filledRows dialect view start stop).Pairwise (· < ·) :=
  (List.pairwise_lt_range' 1 Nat.one_pos).filter _

/-! ### What a search ends with -/

/-- Below the paths at `nameRow + 1`, a `Data` marker is used and stands at `dataRow`. -/
theorem located_of_dataRow {nameRow dataRow : Nat}
    (hname : FirstMarker dialect view nameMarker design.row nameRow)
    (huses : dialect.usesDataMarker = true)
    (hdata : FirstMarker dialect view dataMarker (nameRow + 2) dataRow)
    (hbetween : filledRows dialect view (nameRow + 2) dataRow = []) :
    Located dialect view design
      ⟨nameRow + 1, filledRows dialect view (dataRow + 1) view.height⟩ := by
  have hbelow := hdata.start_le
  have hheight := hdata.isMarker.1
  refine ⟨⟨nameRow, hname, rfl⟩, ?_, pairwise_filledRows _ _, ?_, ?_, ?_, ?_⟩
  · show nameRow + 1 < view.height
    omega
  · intro row hrow
    obtain ⟨hafter, hlt, hfilled⟩ := mem_filledRows.mp hrow
    exact ⟨show nameRow + 1 < row by omega, hlt, hfilled⟩
  · intro row (hrow : nameRow + 1 < row) hfilled
    -- a filled row is not before the marker, so it is the marker or after it
    have hnot : ¬ row < dataRow := by
      intro hlt
      have hmem : row ∈ filledRows dialect view (nameRow + 2) dataRow :=
        mem_filledRows.mpr ⟨by omega, hlt, hfilled.2⟩
      rw [hbetween] at hmem
      cases hmem
    rcases Nat.eq_or_lt_of_le (Nat.le_of_not_lt hnot) with rfl | hlt
    · exact Or.inr ⟨huses, hdata⟩
    · exact Or.inl (mem_filledRows.mpr ⟨hlt, hfilled.1, hfilled.2⟩)
  · intro _
    exact ⟨dataRow, hdata, fun row hrow => (mem_filledRows.mp hrow).1⟩
  · intro hunused
    rw [huses] at hunused
    cases hunused

/-- Below the paths at `nameRow + 1`, no `Data` marker is used and there is none. -/
theorem located_of_noDataRow {nameRow : Nat}
    (hname : FirstMarker dialect view nameMarker design.row nameRow)
    (hpath : nameRow + 1 < view.height) (huses : dialect.usesDataMarker = false)
    (hdata : ∀ row, nameRow + 2 ≤ row → ¬ IsMarker dialect view dataMarker row) :
    Located dialect view design
      ⟨nameRow + 1, filledRows dialect view (nameRow + 2) view.height⟩ := by
  refine ⟨⟨nameRow, hname, rfl⟩, hpath, pairwise_filledRows _ _, ?_, ?_, ?_, fun _ => hdata⟩
  · intro row hrow
    obtain ⟨hafter, hlt, hfilled⟩ := mem_filledRows.mp hrow
    exact ⟨hafter, hlt, hfilled⟩
  · intro row hrow hfilled
    exact Or.inl (mem_filledRows.mpr ⟨hrow, hfilled.1, hfilled.2⟩)
  · intro hused
    rw [huses] at hused
    cases hused

/-! ### The search, step by step -/

/-- The search at a `Name` marker with a row below it. -/
theorem find_of_nameRow {nameRow : Nat}
    (hname : FirstMarker dialect view nameMarker design.row nameRow)
    (hpath : nameRow + 1 < view.height) :
    find dialect view design
      = (firstDataRow dialect view nameRow (markerRow? dialect view (nameRow + 2) dataMarker)).map
          fun start => ⟨nameRow + 1, filledRows dialect view start view.height⟩ := by
  rw [find, markerRow?_eq_some_iff.mpr hname]
  dsimp only
  rw [if_neg (Nat.not_le_of_lt hpath)]
  rfl

/-- The search at a `Name` marker with no row below it. -/
theorem find_of_lastRow {nameRow : Nat}
    (hname : FirstMarker dialect view nameMarker design.row nameRow)
    (hpath : view.height ≤ nameRow + 1) :
    find dialect view design = .error (.missingPathRow (view.place nameRow 0)) := by
  rw [find, markerRow?_eq_some_iff.mpr hname]
  exact if_pos hpath

/-- Where the data rows start if `Data` markers are used. -/
theorem firstDataRow_of_used (view : View) (huses : dialect.usesDataMarker = true)
    (nameRow dataRow : Nat) :
    firstDataRow dialect view nameRow none = .error (.missingDataRow (view.place nameRow 0)) ∧
    (filledRows dialect view (nameRow + 2) dataRow = [] →
      firstDataRow dialect view nameRow (some dataRow) = .ok (dataRow + 1)) ∧
    ∀ stray rest, filledRows dialect view (nameRow + 2) dataRow = stray :: rest →
      firstDataRow dialect view nameRow (some dataRow)
        = .error (.strayRow (view.place stray 0) (view.place dataRow 0)) := by
  refine ⟨?_, ?_, ?_⟩
  · simp only [firstDataRow, huses, if_true]
  · intro hbetween
    simp only [firstDataRow, huses, if_true, hbetween]
  · intro stray rest hbetween
    simp only [firstDataRow, huses, if_true, hbetween]

/-- Where the data rows start if `Data` markers are not used. -/
theorem firstDataRow_of_unused (view : View) (huses : dialect.usesDataMarker = false)
    (nameRow dataRow : Nat) :
    firstDataRow dialect view nameRow none = .ok (nameRow + 2) ∧
    firstDataRow dialect view nameRow (some dataRow)
      = .error (.unexpectedDataRow (view.place dataRow 0)) := by
  simp [firstDataRow, huses]

/-- What a search below the paths ends with. -/
theorem located_or_refused_of_nameRow {nameRow : Nat}
    (hname : FirstMarker dialect view nameMarker design.row nameRow)
    (hpath : nameRow + 1 < view.height) :
    (∃ layout, find dialect view design = .ok layout ∧ Located dialect view design layout) ∨
      ∃ fault code, find dialect view design = .error fault ∧
        fault.diagnostic.code = some code ∧ Refused dialect view design code := by
  rw [find_of_nameRow hname hpath]
  cases hdata : markerRow? dialect view (nameRow + 2) dataMarker with
  | none =>
    -- no `Data` marker: an error if they are used, else all rows are data
    have hdata := markerRow?_eq_none_iff.mp hdata
    cases huses : dialect.usesDataMarker with
    | true =>
      rw [(firstDataRow_of_used view huses nameRow 0).1]
      exact Or.inr ⟨_, .e300, rfl, rfl, .noData hname huses hdata⟩
    | false =>
      rw [(firstDataRow_of_unused view huses nameRow 0).1]
      exact Or.inl ⟨_, rfl, located_of_noDataRow hname hpath huses hdata⟩
  | some dataRow =>
    -- a `Data` marker: an error if they are not used, else nothing may stand above it
    have hdata := markerRow?_eq_some_iff.mp hdata
    cases huses : dialect.usesDataMarker with
    | true =>
      obtain ⟨-, hok, herror⟩ := firstDataRow_of_used view huses nameRow dataRow
      cases hbetween : filledRows dialect view (nameRow + 2) dataRow with
      | nil =>
        rw [hok hbetween]
        exact Or.inl ⟨_, rfl, located_of_dataRow hname huses hdata hbetween⟩
      | cons stray rest =>
        have hstray : stray ∈ filledRows dialect view (nameRow + 2) dataRow := by
          rw [hbetween]
          exact List.mem_cons_self
        obtain ⟨hbelow, habove, hfilled⟩ := mem_filledRows.mp hstray
        have hheight := hdata.isMarker.1
        rw [herror stray rest hbetween]
        exact Or.inr ⟨_, .e305, rfl, rfl,
          .stray hname huses hdata hbelow habove ⟨by omega, hfilled⟩⟩
    | false =>
      rw [(firstDataRow_of_unused view huses nameRow dataRow).2]
      exact Or.inr ⟨_, .e305, rfl, rfl, .unexpected hname huses hdata.start_le hdata.isMarker⟩

/-- **A search ends with a data section or with what is wrong.** -/
theorem located_or_refused (dialect : Dialect) (view : View) (design : Cell) :
    (∃ layout, find dialect view design = .ok layout ∧ Located dialect view design layout) ∨
      ∃ fault code, find dialect view design = .error fault ∧
        fault.diagnostic.code = some code ∧ Refused dialect view design code := by
  cases hname : markerRow? dialect view design.row nameMarker with
  | none =>
    rw [find, hname]
    exact Or.inr ⟨_, .e300, rfl, rfl, .noName (markerRow?_eq_none_iff.mp hname)⟩
  | some nameRow =>
    have hname := markerRow?_eq_some_iff.mp hname
    rcases Nat.lt_or_ge (nameRow + 1) view.height with hpath | hpath
    · exact located_or_refused_of_nameRow hname hpath
    · exact Or.inr ⟨_, .e300, find_of_lastRow hname hpath, rfl, .noPath hname hpath⟩

/-! ### One outcome only -/

/-- The data rows of one description are among those of any other. -/
theorem Located.rows_subset {layout other : DataLayout} (h : Located dialect view design layout)
    (hother : Located dialect view design other) (hpath : layout.pathRow = other.pathRow) :
    layout.rows ⊆ other.rows := by
  intro row hrow
  obtain ⟨hbelow, hfilled⟩ := h.filled row hrow
  rcases hother.complete row (hpath ▸ hbelow) hfilled with hmem | ⟨huses, hfirst⟩
  · exact hmem
  · -- the marker is above the data rows, so it is none of them
    obtain ⟨dataRow, hdata, habove⟩ := h.marked huses
    have hsame : dataRow = row := hdata.unique (hpath ▸ hfirst)
    exact absurd (habove row hrow) (by omega)

/-- A sheet has at most one data section below its design. -/
theorem Located.unique {layout other : DataLayout} (h : Located dialect view design layout)
    (hother : Located dialect view design other) : layout = other := by
  obtain ⟨nameRow, hname, hpathRow⟩ := h.name
  obtain ⟨nameRow', hname', hpathRow'⟩ := hother.name
  have hpath : layout.pathRow = other.pathRow := by
    rw [hpathRow, hpathRow', hname.unique hname']
  have hrows : layout.rows = other.rows := by
    -- rows in strict order are known by their members
    have hperm : layout.rows.Perm other.rows :=
      (List.perm_ext_iff_of_nodup (h.ordered.imp Nat.ne_of_lt)
        (hother.ordered.imp Nat.ne_of_lt)).mpr fun row =>
          ⟨fun hrow => h.rows_subset hother hpath hrow,
            fun hrow => hother.rows_subset h hpath.symm hrow⟩
    exact hperm.eq_of_pairwise (fun _ _ _ _ hlt hgt => absurd hlt (Nat.lt_asymm hgt))
      h.ordered hother.ordered
  cases layout
  cases other
  simp only at hpath hrows
  rw [hpath, hrows]

/-- A data section is found. -/
theorem find_of_located {layout : DataLayout} (h : Located dialect view design layout) :
    find dialect view design = .ok layout := by
  obtain ⟨nameRow, hname, hpathRow⟩ := h.name
  have hpath : nameRow + 1 < view.height := hpathRow ▸ h.path
  rw [find_of_nameRow hname hpath]
  cases huses : dialect.usesDataMarker with
  | true =>
    obtain ⟨dataRow, hdata, habove⟩ := h.marked huses
    rw [hpathRow] at hdata
    -- a filled row above the marker would be a data row, and those are below it
    have hbetween : filledRows dialect view (nameRow + 2) dataRow = [] := by
      rw [List.eq_nil_iff_forall_not_mem]
      intro row hrow
      obtain ⟨hbelow, hlt, hfilled⟩ := mem_filledRows.mp hrow
      have hheight := hdata.isMarker.1
      rcases h.complete row (by omega) ⟨by omega, hfilled⟩ with hmem | ⟨-, hfirst⟩
      · exact absurd (habove row hmem) (by omega)
      · rw [hpathRow] at hfirst
        exact absurd (hfirst.unique hdata) (by omega)
    rw [markerRow?_eq_some_iff.mpr hdata,
      (firstDataRow_of_used view huses nameRow dataRow).2.1 hbetween]
    exact congrArg Except.ok ((located_of_dataRow hname huses hdata hbetween).unique h)
  | false =>
    have hdata : ∀ row, nameRow + 2 ≤ row → ¬ IsMarker dialect view dataMarker row := by
      intro row hrow
      exact h.unmarked huses row (by omega)
    rw [markerRow?_eq_none_iff.mpr hdata, (firstDataRow_of_unused view huses nameRow 0).1]
    exact congrArg Except.ok ((located_of_noDataRow hname hpath huses hdata).unique h)

/-- What is wrong is reported with its code. -/
theorem find_of_refused {code : FaultCode} (h : Refused dialect view design code) :
    ∃ fault, find dialect view design = .error fault ∧ fault.diagnostic.code = some code := by
  cases h with
  | noName hname =>
    rw [find, markerRow?_eq_none_iff.mpr hname]
    exact ⟨_, rfl, rfl⟩
  | noPath hname hpath => exact ⟨_, find_of_lastRow hname hpath, rfl⟩
  | @noData nameRow hname huses hdata =>
    rcases Nat.lt_or_ge (nameRow + 1) view.height with hpath | hpath
    · rw [find_of_nameRow hname hpath, markerRow?_eq_none_iff.mpr hdata,
        (firstDataRow_of_used view huses nameRow 0).1]
      exact ⟨_, rfl, rfl⟩
    · -- there are no paths either, which is found first and has the same code
      exact ⟨_, find_of_lastRow hname hpath, rfl⟩
  | @stray nameRow dataRow stray hname huses hdata hbelow habove hfilled =>
    have hheight := hdata.isMarker.1
    have hmem : stray ∈ filledRows dialect view (nameRow + 2) dataRow :=
      mem_filledRows.mpr ⟨hbelow, habove, hfilled.2⟩
    obtain ⟨first, rest, hbetween⟩ := List.exists_cons_of_ne_nil (List.ne_nil_of_mem hmem)
    rw [find_of_nameRow hname (by omega), markerRow?_eq_some_iff.mpr hdata,
      (firstDataRow_of_used view huses nameRow dataRow).2.2 first rest hbetween]
    exact ⟨_, rfl, rfl⟩
  | @unexpected nameRow dataRow hname huses hbelow hdata =>
    have hheight := hdata.1
    -- the search stops at the first such marker, which may be an earlier one
    obtain ⟨first, hfirst⟩ := hdata.exists_first hbelow
    rw [find_of_nameRow hname (by omega), markerRow?_eq_some_iff.mpr hfirst,
      (firstDataRow_of_unused view huses nameRow first).2]
    exact ⟨_, rfl, rfl⟩

/-- **The data section is found where it lies.**  For every sheet, design and dialect: a search
ends well exactly with the data section as its rows describe it, so no filled row below the paths
is left out but the first `Data` marker, and that only if such markers are used; and it fails with
a code exactly if something is wrong that has this code. -/
theorem find_exact (dialect : Dialect) (view : View) (design : Cell) :
    (∀ layout, find dialect view design = .ok layout ↔ Located dialect view design layout) ∧
    (∀ code, (∃ fault, find dialect view design = .error fault ∧
        fault.diagnostic.code = some code) ↔ Refused dialect view design code) ∧
    ((∃ fault, find dialect view design = .error fault) ↔
      ∃ code, Refused dialect view design code) := by
  -- every search ends in one of the two ways, and both are exclusive
  have houtcome := located_or_refused dialect view design
  refine ⟨fun layout => ⟨?_, find_of_located⟩, fun code => ⟨?_, find_of_refused⟩, ?_, ?_⟩
  · intro h
    rcases houtcome with ⟨found, hfound, hlocated⟩ | ⟨fault, code, hfault, -, -⟩
    · rw [h] at hfound
      cases hfound
      exact hlocated
    · rw [h] at hfault
      cases hfault
  · rintro ⟨fault, h, hcode⟩
    rcases houtcome with ⟨found, hfound, -⟩ | ⟨fault', code', hfault, hcode', hrefused⟩
    · rw [h] at hfound
      cases hfound
    · rw [h] at hfault
      cases hfault
      rw [hcode] at hcode'
      cases hcode'
      exact hrefused
  · rintro ⟨fault, h⟩
    rcases houtcome with ⟨found, hfound, -⟩ | ⟨fault', code, -, -, hrefused⟩
    · rw [h] at hfound
      cases hfound
    · exact ⟨code, hrefused⟩
  · rintro ⟨code, hrefused⟩
    obtain ⟨fault, hfault, -⟩ := find_of_refused hrefused
    exact ⟨fault, hfault⟩

end DataLayout
end TypedSheets

import Mathlib.Data.List.Sort
import Mathlib.Order.Monotone.Basic
import TypedSheets.Proofs.Relocation
import TypedSheets.Proofs.SchemaReading

/-!
# Blocks shown elsewhere

A block is read from its texts.  The rectangle that it is cut from may have more rows and
more columns, as long as they are blank or skipped, and may stand elsewhere in the sheet: the
block is read to the same declarations at the new cells, or the same fault is found there.

There are two such cases.  Rows that are skipped may be added to a sheet, which moves the rows
below them; and the data part of a sheet makes its blocks wider, and ends the last of them.
One lemma for each reader serves both, from the columns of a table up to the block.

## Main definitions

* `View.Shows` — a view that shows the rows of another one, at other places.

## Main results

* `filter_range'_move` — **scans for rows find the old rows at their places.**
* `Table.ofView_shows`, `Table.readRows_shows` — the columns and the elements of a block.
* `Block.read_shows` — **blocks that show the same are read alike.**
-/

namespace TypedSheets

/-- Scans for rows: if rows are moved apart in order, and no row between them is picked,
then those that are picked are the old ones at their places. -/
theorem filter_range'_move {move : Nat → Nat} (hmono : StrictMono move) {p p' : Nat → Bool}
    {start stop start' stop' : Nat} (hstart : ∀ row, start' ≤ move row ↔ start ≤ row)
    (hold : ∀ row, move row < stop' ∧ p' (move row) = true ↔ row < stop ∧ p row = true)
    (hnew : ∀ row, p' row = true → ∃ old, move old = row) :
    (List.range' start' (stop' - start')).filter p'
      = ((List.range' start (stop - start)).filter p).map move := by
  have hsorted : ∀ (a n : Nat) (q : Nat → Bool), ((List.range' a n).filter q).Pairwise (· < ·) :=
    fun a n q => (List.pairwise_lt_range' 1 Nat.one_pos).filter q
  -- both lists go up, so it is enough that they have the same members
  refine List.Pairwise.eq_of_mem_iff (hsorted _ _ _) ?_ fun row => ?_
  · rw [List.pairwise_map]
    exact (hsorted _ _ _).imp fun hlt => hmono hlt
  · simp only [List.mem_filter, List.mem_map, List.mem_range'_1]
    constructor
    · rintro ⟨⟨hlow, hhigh⟩, hp⟩
      obtain ⟨old, rfl⟩ := hnew row hp
      have hlow' := (hstart old).mp hlow
      obtain ⟨hhigh', hp'⟩ := (hold old).mp ⟨by omega, hp⟩
      exact ⟨old, ⟨⟨hlow', by omega⟩, hp'⟩, rfl⟩
    · rintro ⟨old, ⟨⟨hlow, hhigh⟩, hp⟩, rfl⟩
      have hlow' := (hstart old).mpr hlow
      obtain ⟨hhigh', hp'⟩ := (hold old).mpr ⟨by omega, hp⟩
      exact ⟨⟨hlow', by omega⟩, hp'⟩

/-! ### Views that show the same rows -/

/-- That a view shows the rows of another one, `move` giving their places and `f` those of
cells: the header and the names of columns are its first rows as before, and all rows that
are not skipped are old ones, in order.  Blank rows and columns may be added or left out. -/
structure View.Shows (dialect : Dialect) (move : Nat → Nat) (f : Cell → Cell)
    (view view' : View) : Prop where
  mono : StrictMono move
  header : move 0 = 0
  names : move namesRow = namesRow
  text : ∀ row col, view'.text? (move row) col = view.text? row col
  cell : ∀ row col, view'.place (move row) col = f (view.place row col)
  filled : ∀ row, dialect.ignores (view'.text? row 0) = false → ∃ old, move old = row

namespace View.Shows

variable {dialect : Dialect} {move : Nat → Nat} {f : Cell → Cell} {view view' : View}
  (h : view.Shows dialect move f view')

include h

theorem header_text (col : Nat) : view'.text? 0 col = view.text? 0 col := by
  have htext := h.text 0 col
  rwa [h.header] at htext

theorem header_cell (col : Nat) : view'.place 0 col = f (view.place 0 col) := by
  have hcell := h.cell 0 col
  rwa [h.header] at hcell

theorem names_text (col : Nat) : view'.text? namesRow col = view.text? namesRow col := by
  have htext := h.text namesRow col
  rwa [h.names] at htext

theorem names_cell (col : Nat) : view'.place namesRow col = f (view.place namesRow col) := by
  have hcell := h.cell namesRow col
  rwa [h.names] at hcell

end View.Shows

/-- A row that is not skipped lies inside the view. -/
theorem View.lt_height_of_filled {dialect : Dialect} {view : View} {row : Nat}
    (h : (!dialect.ignores (view.text? row 0)) = true) : row < view.height := by
  cases htext : view.text? row 0 with
  | none => rw [htext] at h; cases h
  | some text => exact (View.lt_of_text? htext).1

/-! ### Columns -/

/-- A table with its block in another view. -/
def Table.withView (table : Table) (view : View) : Table := { table with view := view }

namespace Table

variable {dialect : Dialect} {move : Nat → Nat} {f : Cell → Cell} {view view' : View}

theorem findColumns_append_blank (view : View) (known : List (String × Column))
    {blanks : List (Option String × Nat)} (hblank : ∀ cell ∈ blanks, cell.1 = none) :
    ∀ (cells : List (Option String × Nat)) (places : List (String × Nat)),
      findColumns view known (cells ++ blanks) places = findColumns view known cells places := by
  intro cells places
  fun_induction findColumns view known cells places with
  | case1 places =>
    induction blanks with
    | nil => rfl
    | cons cell blanks ih =>
      rw [List.forall_mem_cons] at hblank
      obtain ⟨text, col⟩ := cell
      obtain rfl : text = none := hblank.1
      exact ih hblank.2
  | case2 places col cells ih => exact ih
  | case3 places cell col cells text hknown =>
    simp only [List.cons_append, findColumns, text, hknown]
  | case4 places cell col cells text name column hknown first hseen =>
    simp only [List.cons_append, findColumns, text, hknown, hseen]
  | case5 places cell col cells text name column hknown hseen ih =>
    simp only [List.cons_append, findColumns, text, hknown, hseen]
    exact ih

/-- Columns past the right end of a view are blank, and name nothing. -/
theorem findColumns_of_width_le {n : Nat} (hn : view.width ≤ n) (other : View)
    (known : List (String × Column)) :
    findColumns other known ((List.range n).map (view.text? namesRow)).zipIdx []
      = findColumns other known (view.rowTexts namesRow).zipIdx [] := by
  rw [range_append_range' hn, List.map_append, List.zipIdx_append, ← View.rowTexts]
  refine findColumns_append_blank other known ?_ _ _
  intro cell hcell
  obtain ⟨col, hcol, heq⟩ := List.mem_map.mp (List.fst_mem_of_mem_zipIdx hcell)
  have hout : view.width ≤ col := (List.mem_range'_1.mp hcol).1
  rw [← heq, View.text?, if_neg (by omega)]

/-- Of a view, only the places of its column headers matter, and only for faults. -/
theorem findColumns_relocate (hcell : ∀ col, view'.place namesRow col = f (view.place namesRow col))
    (known : List (String × Column)) :
    ∀ (cells : List (Option String × Nat)) (places : List (String × Nat)),
      findColumns view' known cells places
        = relocated f id (findColumns view known cells places) := by
  intro cells places
  fun_induction findColumns view known cells places with
  | case1 places => rfl
  | case2 places col cells ih => exact ih
  | case3 places cell col cells text hknown =>
    simp only [findColumns, text, hknown, hcell]
    rfl
  | case4 places cell col cells text name column hknown first hseen =>
    simp only [findColumns, text, hknown, hseen, hcell]
    rfl
  | case5 places cell col cells text name column hknown hseen ih =>
    simp only [findColumns, text, hknown, hseen]
    exact ih

/-- **The columns of a block are found where they were.** -/
theorem ofView_shows (h : view.Shows dialect move f view') (columns : List Column) :
    ofView dialect view' columns
      = relocated f (Table.withView · view') (ofView dialect view columns) := by
  -- the wider of the two rows of column headers holds both
  have hcolumns : ∀ known, findColumns view' known (view'.rowTexts namesRow).zipIdx []
      = relocated f id (findColumns view known (view.rowTexts namesRow).zipIdx []) := by
    intro known
    rw [← findColumns_of_width_le (Nat.le_max_right view.width view'.width),
      ← findColumns_of_width_le (Nat.le_max_left view.width view'.width),
      funext h.names_text, findColumns_relocate h.names_cell]
  rw [ofView, ofView, hcolumns]
  refine relocated_bind fun places _ => ?_
  simp only [id, h.header_cell]
  split
  · rfl
  · rfl

/-! ### Elements -/

section Elements

variable {table : Table} (h : table.view.Shows dialect move f view')

include h

theorem elementRows_shows :
    (table.withView view').elementRows dialect = (table.elementRows dialect).map move := by
  have hstart : ∀ row, firstRow ≤ move row ↔ firstRow ≤ row := by
    intro row
    have hlt := h.mono.lt_iff_lt (a := namesRow) (b := row)
    rwa [h.names] at hlt
  refine filter_range'_move h.mono hstart (fun row => ?_) fun row hrow => ?_
  · -- neither view ends before a row that is not skipped, so their heights do not matter
    constructor
    · rintro ⟨-, hrow⟩
      simp only [withView, h.text] at hrow
      exact ⟨View.lt_height_of_filled hrow, hrow⟩
    · rintro ⟨-, hrow⟩
      have hrow' : (!dialect.ignores (view'.text? (move row) 0)) = true := by rwa [h.text]
      exact ⟨View.lt_height_of_filled hrow', hrow'⟩
  · have hfilled : (!dialect.ignores (view'.text? row 0)) = true := hrow
    exact h.filled row (by simpa using hfilled)

theorem raw?_shows (row : Nat) (column : String) :
    (table.withView view').raw? (move row) column = table.raw? row column := by
  simp only [raw?, withView, h.text]

theorem text?_shows (row : Nat) (column : String) :
    (table.withView view').text? (move row) column = table.text? row column := by
  rw [text?, text?, raw?_shows h]

theorem place_shows (row : Nat) (column : String) :
    (table.withView view').place (move row) column = f (table.place row column) :=
  h.cell row _

theorem origin_shows (row : Nat) :
    (table.withView view').origin (move row) = f (table.origin row) :=
  h.cell row 0

theorem checkRow_shows (row : Nat) :
    (table.withView view').checkRow (move row) = relocated f id (table.checkRow row) := by
  simp only [checkRow, withView, h.text, h.cell]
  split
  · rfl
  · rfl

theorem required_shows (row : Nat) (column : String) :
    (table.withView view').required (move row) column
      = relocated f id (table.required row column) := by
  rw [required, required, text?_shows h, place_shows h]
  cases table.text? row column <;> rfl

theorem flag_shows (row : Nat) (column : String) :
    (table.withView view').flag (move row) column = relocated f id (table.flag row column) := by
  rw [flag, flag, text?_shows h, place_shows h]
  cases table.text? row column with
  | none => rfl
  | some text =>
    simp only
    split
    · rfl
    · split
      · rfl
      · rfl

theorem typeOf_shows (row : Nat) :
    (table.withView view').typeOf (move row) = relocated f id (table.typeOf row) := by
  rw [typeOf, typeOf, required_shows h]
  refine relocated_bind fun text _ => ?_
  rw [place_shows h]
  simp only [id]
  split
  · rfl
  · rfl

theorem optional_shows (row : Nat) (type : WrittenType) :
    (table.withView view').optional (move row) type = relocated f id (table.optional row type) := by
  rw [optional, optional, flag_shows h]
  refine relocated_bind fun optional _ => ?_
  rw [place_shows h]
  simp only [id]
  split
  · rfl
  · rfl

/-- **The elements of a block**, if one row is read alike.  The induction is over the rows;
the names so far stand at their new cells. -/
theorem readRows_shows {σ α : Type} {step step' : σ → Nat → String → Except Fault (σ × α)}
    {g : α → α}
    (hstep : ∀ state row name, step' state (move row) name
      = relocated f (fun next => (next.1, g next.2)) (step state row name)) :
    ∀ (rows : List Nat) (seen : List (String × Cell)) (state : σ),
      (table.withView view').readRows step' (rows.map move)
          (seen.map fun entry => (entry.1, f entry.2)) state
        = relocated f (List.map g) (table.readRows step rows seen state) := by
  intro rows
  induction rows with
  | nil => intro seen state; rfl
  | cons row rows ih =>
    intro seen state
    rw [List.map_cons, readRows, readRows, checkRow_shows h]
    refine relocated_bind fun _ _ => ?_
    rw [required_shows h]
    refine relocated_bind fun name _ => ?_
    rw [place_shows h]
    simp only [id, OrderedMap.get?_map_snd]
    -- a name that was seen is seen in the other table, at its new cell
    cases OrderedMap.get? seen name with
    | some first => rfl
    | none =>
      simp only [Option.map_none, hstep, OrderedMap.insert_map_snd]
      refine relocated_bind fun next _ => ?_
      obtain ⟨state, element⟩ := next
      simp only [ih]
      exact relocated_bind fun elements _ => rfl

theorem readAll_shows {α : Type}
    {read read' : Nat → String → Except Fault α} {g : α → α}
    (hread : ∀ row name, read' (move row) name = relocated f g (read row name)) :
    (table.withView view').readAll dialect read'
      = relocated f (List.map g) (table.readAll dialect read) := by
  rw [readAll, readAll, elementRows_shows h]
  refine readRows_shows h (fun state row name => ?_) _ [] ()
  rw [hread]
  exact relocated_map (fun _ => by rfl) _

end Elements
end Table

/-! ### Kinds of blocks -/

section Elements

variable {dialect : Dialect} {move : Nat → Nat} {f : Cell → Cell} {view' : View} {table : Table}
  (h : table.view.Shows dialect move f view')

include h

theorem Member.read_shows (backing : Scalar) (next : Int) (row : Nat) (name : String) :
    Member.read (table.withView view') backing next (move row) name
      = relocated f (fun read => (read.1, read.2.relocate f))
          (Member.read table backing next row name) := by
  -- the number is read from the text alone; its cell matters for a fault only
  have hexplicit : explicitValue (table.withView view') backing (move row)
      = relocated f id (explicitValue table backing row) := by
    rw [explicitValue, explicitValue, Table.text?_shows h, Table.place_shows h]
    cases table.text? row "Value" with
    | none => rfl
    | some text => cases hvalue : Text.wideInteger? text.toList <;> simp only [hvalue] <;> rfl
  rw [Member.read, Member.read, hexplicit]
  refine relocated_bind fun explicit _ => ?_
  rw [Table.text?_shows h, Table.place_shows h, Table.origin_shows h]
  simp only [id]
  split
  · rfl
  · rfl

theorem FieldDecl.read_shows (row : Nat) (name : String) :
    FieldDecl.read (table.withView view') (move row) name
      = relocated f (FieldDecl.relocate f) (FieldDecl.read table row name) := by
  rw [FieldDecl.read, FieldDecl.read, Table.typeOf_shows h]
  refine relocated_bind fun type _ => ?_
  rw [Table.optional_shows h]
  refine relocated_bind fun optional _ => ?_
  rw [Table.text?_shows h, Table.place_shows h, Table.origin_shows h]
  rfl

theorem ConstantDecl.read_shows (row : Nat) (name : String) :
    ConstantDecl.read (table.withView view') (move row) name
      = relocated f (ConstantDecl.relocate f) (ConstantDecl.read table row name) := by
  rw [ConstantDecl.read, ConstantDecl.read, Table.typeOf_shows h]
  refine relocated_bind fun type _ => ?_
  rw [Table.raw?_shows h, Table.text?_shows h, Table.place_shows h, Table.place_shows h,
    Table.origin_shows h]
  rfl

theorem EntityField.read_shows (row : Nat) (name : String) :
    EntityField.read (table.withView view') (move row) name
      = relocated f (EntityField.relocate f) (EntityField.read table row name) := by
  rw [EntityField.read, EntityField.read, Table.typeOf_shows h]
  refine relocated_bind fun type _ => ?_
  rw [Table.optional_shows h]
  refine relocated_bind fun optional _ => ?_
  rw [Table.flag_shows h]
  refine relocated_bind fun isKey _ => ?_
  rw [Table.text?_shows h, Table.text?_shows h, Table.place_shows h, Table.origin_shows h]
  rfl

end Elements

section Kinds

variable {dialect : Dialect} {move : Nat → Nat} {f : Cell → Cell} {view view' : View}
  (h : view.Shows dialect move f view')

include h

/-- A kind of block with elements is read alike if its elements are. -/
theorem Table.bind_ofView_shows {α : Type} {columns : List Column} {g : α → α}
    {read read' : Table → Except Fault α}
    (hread : ∀ table : Table, table.view = view →
      read' (table.withView view') = relocated f g (read table)) :
    (Table.ofView dialect view' columns >>= read')
      = relocated f g (Table.ofView dialect view columns >>= read) := by
  rw [Table.ofView_shows h]
  exact relocated_bind fun table htable => hread table (Table.view_of_ofView htable)

theorem EnumDecl.read_shows (options : List String) :
    EnumDecl.read dialect view' options
      = relocated f (EnumDecl.relocate f) (EnumDecl.read dialect view options) := by
  refine Table.bind_ofView_shows h fun table htable => ?_
  subst htable
  rw [Table.elementRows_shows h]
  have hmembers := Table.readRows_shows h
    (fun next row name => Member.read_shows h (enumScalar dialect options) next row name)
    (table.elementRows dialect) [] 0
  rw [List.map_nil] at hmembers
  rw [hmembers]
  exact relocated_bind fun members _ => rfl

theorem RecordDecl.read_shows (options : List String) :
    RecordDecl.read dialect view' options
      = relocated f (RecordDecl.relocate f) (RecordDecl.read dialect view options) := by
  refine Table.bind_ofView_shows h fun table htable => ?_
  subst htable
  rw [Table.readAll_shows h (FieldDecl.read_shows h)]
  exact relocated_bind fun fields _ => rfl

theorem ConstantDecl.readAll_shows :
    ConstantDecl.readAll dialect view'
      = relocated f (List.map (ConstantDecl.relocate f)) (ConstantDecl.readAll dialect view) := by
  refine Table.bind_ofView_shows h fun table htable => ?_
  subst htable
  exact Table.readAll_shows h (ConstantDecl.read_shows h)

theorem DesignDecl.read_shows :
    DesignDecl.read dialect view'
      = relocated f (DesignDecl.relocate f) (DesignDecl.read dialect view) := by
  rw [DesignDecl.read, DesignDecl.read, h.header_text, h.header_cell]
  refine Table.bind_ofView_shows h fun table htable => ?_
  subst htable
  rw [Table.readAll_shows h (EntityField.read_shows h)]
  refine relocated_bind fun fields _ => ?_
  have hkey : (fields.map (EntityField.relocate f)).any (·.isKey) = fields.any (·.isKey) := by
    rw [List.any_map]
    rfl
  rw [hkey]
  split
  · rfl
  · rfl

theorem BlockContent.read_shows (kind : BlockKind) (options : List String) :
    BlockContent.read dialect kind view' options
      = relocated f (BlockContent.relocate f) (BlockContent.read dialect kind view options) := by
  rw [BlockContent.read.eq_def, BlockContent.read.eq_def]
  cases kind with
  | description =>
    have htext := h.names_text 0
    have hcell := h.names_cell 0
    simp only [descriptionText, namesRow] at htext hcell ⊢
    rw [htext, hcell]
    cases view.text? 1 0 <;> rfl
  | «enum» =>
    simp only [EnumDecl.read_shows h]
    exact relocated_map (fun _ => by rfl) _
  | record =>
    simp only [RecordDecl.read_shows h]
    exact relocated_map (fun _ => by rfl) _
  | interface => rfl
  | constant =>
    simp only [ConstantDecl.readAll_shows h]
    exact relocated_map (fun _ => by rfl) _
  | design =>
    simp only [DesignDecl.read_shows h]
    exact relocated_map (fun _ => by rfl) _

/-- **Blocks that show the same are read alike**, to the same declarations at the new cells, or
to the same fault there. -/
theorem Block.read_shows (kind : BlockKind) :
    Block.read dialect kind view'
      = relocated f (Block.relocate f) (Block.read dialect kind view) := by
  have hname : blockName kind view' = relocated f id (blockName kind view) := by
    rw [blockName, blockName, h.header_text, h.header_cell]
    split
    · cases view.text? 0 1 <;> rfl
    · rfl
  rw [Block.read, Block.read, hname]
  refine relocated_bind fun name _ => ?_
  rw [h.header_text, h.header_text, h.header_cell, BlockContent.read_shows h]
  exact relocated_bind fun body _ => rfl

end Kinds

end TypedSheets

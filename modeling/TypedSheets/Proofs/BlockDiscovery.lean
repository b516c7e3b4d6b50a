import TypedSheets.Proofs.Result
import TypedSheets.Schema.Reader

/-!
# How a sheet is cut into blocks

The schema part of a sheet ends at the first row tagged as the start of its data.  Above
it, every row with a header cell opens a block, which fills all rows up to the next one.
So the blocks are told by the rows with headers alone, and this is what reading a schema
does: one block for each, in order, read from its own rows and no others.  The kinds that
occur once are remembered with their cells; a header is refused for its tag, for a kind
that was there before, or for what its rows hold.

## Main definitions

* `schemaEnd`, `openings` — the end of the schema part, and the header rows above it.
* `extents`, `View.band` — the rows of each block.
* `Block.FoundAt` — a block read from its rows.
* `Block.Refused` — a header that no block is read for, and why.

## Main results

* `headerRows_eq_openings`, `extents_openings` — which rows are scanned, and how far each
  block goes.
* `Block.readAll_cons` — **one header.**
* `Block.readAll_spec` — **all headers.**
* `Schema.read_blocks` — **the blocks of a sheet are those of its header rows.**
-/

namespace TypedSheets

/-! ### Header rows and their extents -/

/-- The first row of the data part of a sheet, or the number of its rows. -/
def schemaEnd (dialect : Dialect) (view : View) : Nat :=
  (view.rowWhere? 0 0 (isDataHeader dialect)).getD view.height

/-- The rows of the schema part whose first cell is a header. -/
def openings (dialect : Dialect) (view : View) : List Nat :=
  (List.range (schemaEnd dialect view)).filter fun row => isHeaderCell (view.text? row 0)

/-- Each of some rows with the one after it, the last with `stop`. -/
def extents (rows : List Nat) (stop : Nat) : List (Nat × Nat) := rows.zip (rows.tail ++ [stop])

/-- The rows from `first` to before `stop` of a view, in all its columns. -/
def View.band (view : View) (first stop : Nat) : View :=
  ⟨view.grid, view.top + first, view.left, stop - first, view.width⟩

/-- Only headers have tags. -/
theorem isHeaderCell_of_tag? {dialect : Dialect} {cell : Option String} {tag : String}
    (h : dialect.tag? cell = some tag) : isHeaderCell cell = true := by
  rw [Dialect.tag?] at h
  by_contra hcell
  rw [if_neg hcell] at h
  cases h

theorem isHeaderCell_of_isDataHeader {dialect : Dialect} {cell : Option String}
    (h : isDataHeader dialect cell = true) : isHeaderCell cell = true := by
  rw [isDataHeader] at h
  split at h
  · next htag => exact isHeaderCell_of_tag? htag
  · cases h

/-- A cell with text lies inside its view. -/
theorem View.lt_of_text? {view : View} {row col : Nat} {text : String}
    (h : view.text? row col = some text) : row < view.height ∧ col < view.width := by
  rw [View.text?] at h
  by_contra hout
  rw [if_neg hout] at h
  cases h

theorem lt_of_isHeaderCell {view : View} {row col : Nat}
    (h : isHeaderCell (view.text? row col) = true) : row < view.height ∧ col < view.width := by
  cases htext : view.text? row col with
  | none => rw [htext] at h; cases h
  | some text => exact View.lt_of_text? htext

/-- Where the data part starts: no row above it is marked so, and it is, unless the sheet
has no data part. -/
theorem schemaEnd_spec (dialect : Dialect) (view : View) :
    (∀ row < schemaEnd dialect view, isDataHeader dialect (view.text? row 0) = false) ∧
      (schemaEnd dialect view = view.height ∨ schemaEnd dialect view < view.height ∧
        isDataHeader dialect (view.text? (schemaEnd dialect view) 0) = true) := by
  rw [schemaEnd, View.rowWhere?, View.rowsFrom, Nat.sub_zero, ← List.range_eq_range']
  cases hfind : (List.range view.height).find? fun row =>
      isDataHeader dialect (view.text? row 0) with
  | none =>
    rw [List.find?_eq_none] at hfind
    refine ⟨fun row hrow => ?_, Or.inl rfl⟩
    exact Bool.eq_false_iff.mpr (hfind row (List.mem_range.mpr hrow))
  | some m =>
    rw [List.find?_range_eq_some] at hfind
    obtain ⟨hmarked, hlt, hbefore⟩ := hfind
    refine ⟨fun row hrow => ?_, Or.inr ⟨List.mem_range.mp hlt, hmarked⟩⟩
    simpa using hbefore row hrow

theorem schemaEnd_le (dialect : Dialect) (view : View) : schemaEnd dialect view ≤ view.height := by
  rcases (schemaEnd_spec dialect view).2 with h | h
  · exact Nat.le_of_eq h
  · exact Nat.le_of_lt h.1

/-- The rows from `a` to before `n`, cut at a row between them. -/
theorem range'_append_range' {a m n : Nat} (ham : a ≤ m) (hmn : m ≤ n) :
    List.range' a (n - a) = List.range' a (m - a) ++ List.range' m (n - m) := by
  have h := List.range'_append_1 (s := a) (m := m - a) (n := n - m)
  rw [Nat.add_sub_cancel' ham] at h
  rw [h]
  congr 1
  omega

/-- The rows before `n`, cut at one of them. -/
theorem range_append_range' {m n : Nat} (h : m ≤ n) :
    List.range n = List.range m ++ List.range' m (n - m) := by
  have hsplit := range'_append_range' (Nat.zero_le m) h
  rwa [Nat.sub_zero, Nat.sub_zero, ← List.range_eq_range', ← List.range_eq_range'] at hsplit

/-- The scan for headers stops where the data part starts. -/
theorem headerRows_eq_openings (dialect : Dialect) (view : View) :
    headerRows dialect view = openings dialect view := by
  obtain ⟨hbefore, hend⟩ := schemaEnd_spec dialect view
  have hle := schemaEnd_le dialect view
  rw [openings]
  generalize schemaEnd dialect view = m at hbefore hend hle ⊢
  have habove : ∀ row ∈ (List.range m).filter fun row => isHeaderCell (view.text? row 0),
      (!isDataHeader dialect (view.text? row 0)) = true := by
    intro row hrow
    rw [hbefore row (List.mem_range.mp (List.mem_filter.mp hrow).1)]
    rfl
  rw [headerRows, range_append_range' hle, List.filter_append,
    List.takeWhile_append_of_pos habove]
  rcases hend with rfl | ⟨hlt, hmarked⟩
  · simp
  · -- the first row of the data part is a header, and ends the scan
    obtain ⟨k, hk⟩ : ∃ k, view.height - m = k + 1 := ⟨view.height - m - 1, by omega⟩
    have hheader := isHeaderCell_of_isDataHeader hmarked
    rw [hk, List.range'_succ, List.filter_cons, if_pos hheader,
      List.takeWhile_cons_of_neg (by simp [hmarked]), List.append_nil]

/-- Where the block of a row ends is the next of the header rows, or the end of the schema
part.  The induction is over the rows still to be scanned, from `a` on. -/
theorem extents_filter_range' {p : Nat → Bool} {m n : Nat} (hmn : m ≤ n)
    (hm : m = n ∨ p m = true) : ∀ (k a : Nat), m - a = k → a ≤ m →
      ((List.range' a (n - a)).find? p).getD n
          = ((List.range' a (m - a)).filter p).headD m ∧
        extents ((List.range' a (m - a)).filter p) m
          = ((List.range' a (m - a)).filter p).map fun row =>
              (row, ((List.range' (row + 1) (n - (row + 1))).find? p).getD n) := by
  intro k
  induction k with
  | zero =>
    intro a hk ham
    -- nothing is left above `m`, and from `m` on the first row found is `m` itself
    obtain rfl : a = m := by omega
    refine ⟨?_, by simp [extents]⟩
    rcases hm with rfl | hm
    · simp
    · rcases Nat.eq_or_lt_of_le hmn with rfl | hlt
      · simp
      · obtain ⟨j, hj⟩ : ∃ j, n - a = j + 1 := ⟨n - a - 1, by omega⟩
        simp [hj, List.range'_succ, hm]
  | succ k ih =>
    intro a hk ham
    -- both ranges start with row `a`, which is a header or is passed over
    obtain ⟨hnext, hrest⟩ := ih (a + 1) (by omega) (by omega)
    have hrange : List.range' a (m - a) = a :: List.range' (a + 1) (m - (a + 1)) := by
      rw [show m - a = (m - (a + 1)) + 1 by omega, List.range'_succ]
    have hrange' : List.range' a (n - a) = a :: List.range' (a + 1) (n - (a + 1)) := by
      rw [show n - a = (n - (a + 1)) + 1 by omega, List.range'_succ]
    rw [hrange, hrange']
    cases hp : p a with
    | false =>
      rw [List.filter_cons_of_neg (by simp [hp]), List.find?_cons_of_neg (by simp [hp])]
      exact ⟨hnext, hrest⟩
    | true =>
      refine ⟨by simp [hp], ?_⟩
      -- the block of `a` ends at the next header, which the hypothesis gives
      rw [List.filter_cons, if_pos hp, List.map_cons, hnext, ← hrest]
      cases (List.range' (a + 1) (m - (a + 1))).filter p with
      | nil => rfl
      | cons first rest => rfl

/-- **The block of a header row goes to the next one**, the last to the end of the schema
part. -/
theorem extents_openings (dialect : Dialect) (view : View) :
    extents (openings dialect view) (schemaEnd dialect view)
      = (openings dialect view).map fun row => (row, blockEnd view row) := by
  have hend : schemaEnd dialect view = view.height ∨
      isHeaderCell (view.text? (schemaEnd dialect view) 0) = true := by
    rcases (schemaEnd_spec dialect view).2 with h | ⟨-, h⟩
    · exact Or.inl h
    · exact Or.inr (isHeaderCell_of_isDataHeader h)
  have h := (extents_filter_range' (p := fun row => isHeaderCell (view.text? row 0))
    (schemaEnd_le dialect view) hend _ 0 rfl (Nat.zero_le _)).2
  rw [Nat.sub_zero, ← List.range_eq_range'] at h
  exact h

theorem lt_blockEnd {view : View} {row : Nat} (hrow : row < view.height) :
    row < blockEnd view row ∧ blockEnd view row ≤ view.height := by
  rw [blockEnd, View.rowWhere?, View.rowsFrom]
  cases hfind : (List.range' (row + 1) (view.height - (row + 1))).find? fun row =>
      isHeaderCell (view.text? row 0) with
  | none => exact ⟨hrow, Nat.le_refl _⟩
  | some next =>
    have hnext := List.mem_range'_1.mp (List.mem_of_find?_eq_some hfind)
    rw [Option.getD_some]
    omega

/-- The rectangle a block is read from is that of its rows. -/
theorem View.window_eq_band {view : View} {first stop : Nat} (hfirst : first < stop)
    (hstop : stop ≤ view.height) (hwidth : 0 < view.width) :
    view.window first 0 (stop - 1) (view.width - 1) = .ok (view.band first stop) := by
  rw [View.window, if_neg (by omega), View.band]
  congr 2
  · omega
  · omega

/-! ### Tags and kinds -/

theorem BlockKind.ofTag?_tag (kind : BlockKind) : BlockKind.ofTag? kind.tag = some kind := by
  cases kind <;> decide

theorem BlockKind.ofTag?_eq_some_iff {tag : String} {kind : BlockKind} :
    BlockKind.ofTag? tag = some kind ↔ tag = kind.tag := by
  constructor
  · intro h
    have htag := List.find?_some h
    exact (beq_iff_eq.mp htag).symm
  · rintro rfl
    exact kind.ofTag?_tag

theorem BlockContent.kind_of_read {dialect : Dialect} {kind : BlockKind} {view : View}
    {options : List String} {body : BlockContent}
    (h : BlockContent.read dialect kind view options = .ok body) : body.kind = kind := by
  rw [BlockContent.read.eq_def] at h
  cases kind with
  | interface => cases h; rfl
  | _ =>
    obtain ⟨_, -, rfl⟩ := map_eq_ok.mp h
    rfl

namespace Block

/-- A block keeps the kind it was read as, and the cell of its header. -/
theorem kind_origin_of_read {dialect : Dialect} {kind : BlockKind} {view : View} {block : Block}
    (h : Block.read dialect kind view = .ok block) :
    block.kind = kind ∧ block.origin = view.place 0 0 := by
  rw [Block.read] at h
  obtain ⟨_, -, h⟩ := bind_eq_ok.mp h
  obtain ⟨body, hbody, h⟩ := bind_eq_ok.mp h
  cases h
  exact ⟨BlockContent.kind_of_read hbody, rfl⟩

/-! ### One header -/

section Reading

variable (dialect : Dialect) (view : View)

/-- A block that was read from its rows: those from its header row to before the next one,
in all columns.  Its kind is the one of its tag. -/
structure FoundAt (extent : Nat × Nat) (block : Block) : Prop where
  tag : dialect.tag? (view.text? extent.1 0) = some block.kind.tag
  origin : block.origin = view.place extent.1 0
  read : Block.read dialect block.kind (view.band extent.1 extent.2) = .ok block

/-- No two blocks of a kind that occurs once. -/
def Once (blocks : List Block) : Prop :=
  blocks.Pairwise fun first later => first.kind = later.kind → first.kind.repeats = true

/-- The cells of a diagnostic, each with whether it is the one at fault. -/
def marks (fault : Fault) : List (Cell × Bool) :=
  fault.diagnostic.labels.map fun label => (label.cell, label.isPrimary)

/-- A header after some blocks for which no block is read: the fault, its code and the cells
that it is marked at. -/
inductive Refused (before : List Block) (extent : Nat × Nat) :
    Fault → Option FaultCode → List (Cell × Bool) → Prop
  /-- It has no tag. -/
  | untagged (htag : dialect.tag? (view.text? extent.1 0) = none) :
      Refused before extent (.unknownBlock "" (view.place extent.1 0)) (some .e100)
        [(view.place extent.1 0, true)]
  /-- Its tag is that of no kind. -/
  | unknown {tag : String} (htag : dialect.tag? (view.text? extent.1 0) = some tag)
      (hkind : ∀ kind : BlockKind, kind.tag ≠ tag) :
      Refused before extent (.unknownBlock tag (view.place extent.1 0)) (some .e100)
        [(view.place extent.1 0, true)]
  /-- Its kind occurs once, and did before. -/
  | repeated {kind : BlockKind} {earlier : Block}
      (htag : dialect.tag? (view.text? extent.1 0) = some kind.tag)
      (honce : kind.repeats = false) (hearlier : earlier ∈ before) (hkind : earlier.kind = kind) :
      Refused before extent (.repeatedBlock kind (view.place extent.1 0) earlier.origin)
        (some .e101) [(view.place extent.1 0, true), (earlier.origin, false)]
  /-- Its rows cannot be read. -/
  | unreadable {kind : BlockKind} {fault : Fault}
      (htag : dialect.tag? (view.text? extent.1 0) = some kind.tag)
      (hnew : ∀ earlier ∈ before, earlier.kind = kind → kind.repeats = true)
      (hread : Block.read dialect kind (view.band extent.1 extent.2) = .error fault) :
      Refused before extent fault fault.diagnostic.code (marks fault)

end Reading

variable {dialect : Dialect} {view : View}

theorem Refused.diagnostic {before : List Block} {extent : Nat × Nat} {fault : Fault}
    {code : Option FaultCode} {cells : List (Cell × Bool)}
    (h : Refused dialect view before extent fault code cells) :
    fault.diagnostic.code = code ∧ marks fault = cells := by
  cases h with
  | untagged _ => exact ⟨rfl, rfl⟩
  | unknown _ _ => exact ⟨rfl, rfl⟩
  | repeated _ _ _ _ => exact ⟨rfl, rfl⟩
  | unreadable _ _ _ => exact ⟨rfl, rfl⟩

/-- The kinds that are remembered after some blocks, the latest first. -/
def remembered (blocks : List Block) : List (BlockKind × Cell) :=
  ((blocks.filter fun block => !block.kind.repeats).map fun block =>
    (block.kind, block.origin)).reverse

theorem remembered_snoc (blocks : List Block) (block : Block) :
    remembered (blocks ++ [block])
      = if block.kind.repeats then remembered blocks
        else (block.kind, block.origin) :: remembered blocks := by
  rw [remembered, List.filter_append, List.map_append, List.reverse_append]
  cases hrepeats : block.kind.repeats with
  | true => simp [hrepeats, remembered]
  | false => simp [hrepeats, remembered]

theorem mem_remembered {blocks : List Block} {entry : BlockKind × Cell} :
    entry ∈ remembered blocks ↔ ∃ block ∈ blocks, block.kind.repeats = false ∧
      (block.kind, block.origin) = entry := by
  simp [remembered, and_assoc]

/-- The kind of a header by its tag. -/
theorem headerKind_cases (dialect : Dialect) (view : View) (row : Nat) :
    (∃ kind, headerKind dialect view row = .ok kind ∧
      dialect.tag? (view.text? row 0) = some kind.tag) ∨
    ∃ fault, headerKind dialect view row = .error fault ∧
      ∀ before stop, Refused dialect view before (row, stop) fault (some .e100)
        [(view.place row 0, true)] := by
  cases htag : dialect.tag? (view.text? row 0) with
  | none =>
    refine Or.inr ⟨.unknownBlock "" (view.place row 0), ?_, fun _ _ => .untagged htag⟩
    rw [headerKind, htag]
    rfl
  | some tag =>
    cases hkind : BlockKind.ofTag? tag with
    | none =>
      refine Or.inr ⟨.unknownBlock tag (view.place row 0), ?_, fun _ _ => .unknown htag ?_⟩
      · simp only [headerKind, htag, Option.getD_some, hkind]
      · rintro kind rfl
        rw [BlockKind.ofTag?_tag] at hkind
        cases hkind
    | some kind =>
      refine Or.inl ⟨kind, ?_, ?_⟩
      · simp only [headerKind, htag, Option.getD_some, hkind]
      · rw [BlockKind.ofTag?_eq_some_iff.mp hkind]

/-- The rectangle below a header is that of its block. -/
theorem readAt_eq_read {row : Nat} (hrow : isHeaderCell (view.text? row 0) = true)
    (kind : BlockKind) :
    Block.readAt dialect view kind row
      = Block.read dialect kind (view.band row (blockEnd view row)) := by
  obtain ⟨hheight, hwidth⟩ := lt_of_isHeaderCell hrow
  obtain ⟨hfirst, hstop⟩ := lt_blockEnd hheight
  rw [Block.readAt, View.window_eq_band hfirst hstop hwidth]

/-- **One header**: it is refused, or its block is read and the rows after it follow. -/
theorem readAll_cons {row : Nat} (hrow : isHeaderCell (view.text? row 0) = true)
    (before : List Block) :
    (∃ fault code cells,
      Refused dialect view before (row, blockEnd view row) fault code cells ∧
      ∀ rows, Block.readAll dialect view (row :: rows) (remembered before) = .error fault) ∨
    ∃ block, FoundAt dialect view (row, blockEnd view row) block ∧
      (∀ earlier ∈ before, earlier.kind = block.kind → earlier.kind.repeats = true) ∧
      ∀ rows, Block.readAll dialect view (row :: rows) (remembered before)
        = (Block.readAll dialect view rows (remembered (before ++ [block]))).map (block :: ·) := by
  rcases headerKind_cases dialect view row with ⟨kind, hkind, htag⟩ | ⟨fault, hfault, hrefused⟩
  · cases hseen : (remembered before).find? fun entry => entry.1 = kind with
    | some entry =>
      -- what is remembered is an earlier block of a kind that occurs once
      obtain ⟨earlier, hearlier, honce, rfl⟩ :=
        mem_remembered.mp (List.mem_of_find?_eq_some hseen)
      have hfound := List.find?_some hseen
      have hsame : earlier.kind = kind := of_decide_eq_true hfound
      refine Or.inl ⟨_, _, _, .repeated htag (hsame ▸ honce) hearlier hsame, fun rows => ?_⟩
      rw [Block.readAll, hkind]
      simp only [bind, Except.bind, hseen]
      rfl
    | none =>
      -- nothing remembered has this kind, so an earlier block of it is of a kind that repeats
      have hnew : ∀ earlier ∈ before, earlier.kind = kind → earlier.kind.repeats = true := by
        intro earlier hearlier hsame
        rw [List.find?_eq_none] at hseen
        by_contra honce
        exact hseen _ (mem_remembered.mpr
          ⟨earlier, hearlier, Bool.not_eq_true _ ▸ honce, rfl⟩) (decide_eq_true hsame)
      -- the rows of the block are those up to the next header
      have hat : Block.readAt dialect view kind row
          = Block.read dialect kind (view.band row (blockEnd view row)) := readAt_eq_read hrow kind
      cases hread : Block.read dialect kind (view.band row (blockEnd view row)) with
      | error fault =>
        refine Or.inl ⟨fault, _, _, .unreadable htag ?_ hread, fun rows => ?_⟩
        · intro earlier hearlier hsame
          rw [← hsame]
          exact hnew earlier hearlier hsame
        · rw [Block.readAll, hkind]
          simp only [bind, Except.bind, hseen, hat, hread]
      | ok block =>
        -- the block that was read is remembered from here on, unless its kind repeats
        obtain ⟨rfl, horigin⟩ := kind_origin_of_read hread
        have horigin : block.origin = view.place row 0 := horigin
        refine Or.inr ⟨block, ⟨htag, horigin, hread⟩, hnew, fun rows => ?_⟩
        rw [Block.readAll, hkind, remembered_snoc, horigin]
        simp only [bind, Except.bind, hseen, hat, hread]
        cases Block.readAll dialect view rows
            (if block.kind.repeats then remembered before
              else (block.kind, view.place row 0) :: remembered before) with
        | error _ => rfl
        | ok _ => rfl
  · -- a header without a known tag is refused, whatever comes after it
    refine Or.inl ⟨fault, _, _, hrefused before _, fun rows => ?_⟩
    rw [Block.readAll, hfault]
    rfl

/-! ### All headers -/

theorem once_nil : Once [] := List.Pairwise.nil

theorem Once.snoc {blocks : List Block} {block : Block} (h : Once blocks)
    (hnew : ∀ earlier ∈ blocks, earlier.kind = block.kind → earlier.kind.repeats = true) :
    Once (blocks ++ [block]) := by
  refine List.pairwise_append.mpr ⟨h, List.pairwise_singleton _ _, ?_⟩
  intro earlier hearlier later hlater
  rw [List.mem_singleton.mp hlater]
  exact hnew earlier hearlier

/-- **All headers.**  The blocks read so far are those of the headers so far; either all
headers have one, or the first that has none is refused. -/
theorem readAll_spec (dialect : Dialect) : ∀ (rows : List Nat) {before : List Block},
    (∀ row ∈ rows, isHeaderCell (view.text? row 0) = true) → Once before →
    (∀ blocks, Block.readAll dialect view rows (remembered before) = .ok blocks →
      List.Forall₂ (FoundAt dialect view) (rows.map fun row => (row, blockEnd view row)) blocks ∧
        Once (before ++ blocks)) ∧
    ∀ fault, Block.readAll dialect view rows (remembered before) = .error fault →
      ∃ above row below blocks code cells, rows = above ++ row :: below ∧
        List.Forall₂ (FoundAt dialect view) (above.map fun row => (row, blockEnd view row)) blocks ∧
        Once (before ++ blocks) ∧
        Refused dialect view (before ++ blocks) (row, blockEnd view row) fault code cells := by
  intro rows
  induction rows with
  | nil =>
    intro before _ honce
    constructor
    · intro blocks h
      cases h
      exact ⟨List.Forall₂.nil, by simpa using honce⟩
    · intro fault h
      cases h
  | cons row rows ih =>
    intro before hrows honce
    rw [List.forall_mem_cons] at hrows
    -- the first header is refused, or its block joins those read before
    rcases readAll_cons hrows.1 before with
      ⟨fault, code, cells, hrefused, hread⟩ | ⟨block, hfound, hnew, hread⟩
    · rw [hread]
      constructor
      · intro blocks h
        cases h
      · intro fault' h
        cases h
        exact ⟨[], row, rows, [], code, cells, rfl, List.Forall₂.nil, by simpa using honce,
          by simpa using hrefused⟩
    · -- then the blocks after it are read with one more block behind them
      obtain ⟨hok, herror⟩ := ih hrows.2 (honce.snoc hnew)
      rw [hread]
      constructor
      · intro blocks h
        obtain ⟨rest, hrest, rfl⟩ := map_eq_ok.mp h
        obtain ⟨hfoundRest, honceRest⟩ := hok rest hrest
        exact ⟨List.Forall₂.cons hfound hfoundRest, by simpa using honceRest⟩
      · intro fault h
        obtain ⟨above, refused, below, rest, code, cells, rfl, hfoundRest, honceRest, hrefused⟩ :=
          herror fault (map_eq_error.mp h)
        exact ⟨row :: above, refused, below, block :: rest, code, cells, rfl,
          List.Forall₂.cons hfound hfoundRest, by simpa using honceRest, by simpa using hrefused⟩

end Block

theorem isHeaderCell_of_mem_openings {dialect : Dialect} {view : View} :
    ∀ row ∈ openings dialect view, isHeaderCell (view.text? row 0) = true :=
  fun _ hrow => (List.mem_filter.mp hrow).2

/-- The blocks of a schema that was read. -/
theorem Schema.foundAt_of_read {dialect : Dialect} {sheet : String} {view : View}
    {schema : Schema} (h : Schema.read dialect sheet view = .ok schema) :
    schema.sheet = sheet ∧
      List.Forall₂ (Block.FoundAt dialect view)
        ((openings dialect view).map fun row => (row, blockEnd view row)) schema.blocks ∧
      Block.Once schema.blocks := by
  rw [Schema.read, headerRows_eq_openings] at h
  obtain ⟨blocks, hblocks, h⟩ := bind_eq_ok.mp h
  cases h
  exact ⟨rfl, (Block.readAll_spec dialect (openings dialect view) isHeaderCell_of_mem_openings
    Block.once_nil).1 blocks hblocks⟩

/-- **The blocks of a sheet are those of its header rows.**  For every sheet, whatever its
dialect: when its schema is read, there is one block for each header row of the schema part,
in order, of the kind of its tag and read from the rows up to the next header, the last up to
the end of the schema part; and no kind that occurs once occurs twice.  When it is not, the
fault is that of the first header row for which there is no block, those before it having
theirs: it has no tag or an unknown one, repeats a kind, or its rows cannot be read. -/
theorem Schema.read_blocks (dialect : Dialect) (sheet : String) (view : View) :
    (∀ schema, Schema.read dialect sheet view = .ok schema → schema.sheet = sheet ∧
      List.Forall₂ (Block.FoundAt dialect view)
        (extents (openings dialect view) (schemaEnd dialect view)) schema.blocks ∧
      Block.Once schema.blocks) ∧
    ∀ fault, Schema.read dialect sheet view = .error fault →
      ∃ above extent below blocks code cells,
        extents (openings dialect view) (schemaEnd dialect view) = above ++ extent :: below ∧
        List.Forall₂ (Block.FoundAt dialect view) above blocks ∧ Block.Once blocks ∧
        Block.Refused dialect view blocks extent fault code cells ∧
        fault.diagnostic.code = code ∧ Block.marks fault = cells := by
  rw [extents_openings]
  constructor
  · intro schema h
    exact Schema.foundAt_of_read h
  · intro fault h
    rw [Schema.read, headerRows_eq_openings] at h
    rcases bind_eq_error.mp h with hblocks | ⟨_, -, h⟩
    · obtain ⟨above, row, below, blocks, code, cells, hrows, hfound, honce, hrefused⟩ :=
        (Block.readAll_spec dialect (openings dialect view) isHeaderCell_of_mem_openings
          Block.once_nil).2 fault hblocks
      refine ⟨_, _, below.map fun row => (row, blockEnd view row), blocks, code, cells, ?_, hfound,
        honce, hrefused, hrefused.diagnostic⟩
      rw [hrows, List.map_append, List.map_cons]
    · cases h

/-! ### A sheet with two blocks -/

namespace Shelf

/-- The rows of an enumeration and a design. -/
def declared : List (Array (Option String)) := [
  #[some "[Enum]", some "Size"], #[some "Name"], #[some "Small"], #[none, some "a note"],
  #[some "[Design]"], #[some "Name", some "Type", some "IsPrimaryKey"],
  #[some "Id", some "int", some "true"]]

def grid : Grid := ⟨(declared ++ [#[some "[Name]"], #[some "Id"], #[some "[Data]"]]).toArray⟩

/-- The same with a second design. -/
def clash : Grid := ⟨(declared ++ [#[some "[Design]"], #[some "Name"]]).toArray⟩

/-- The first sheet has the two blocks above its data part; the second is refused at its
second design. -/
theorem read_blocks_shelf :
    (∃ schema, Schema.read default "Shelf" grid.view = .ok schema ∧
      List.Forall₂ (Block.FoundAt default grid.view) [(0, 4), (4, 7)] schema.blocks ∧
      Block.Once schema.blocks) ∧
    ∃ fault, Schema.read default "Shelf" clash.view = .error fault ∧
      ∃ above extent below blocks, [(0, 4), (4, 7), (7, 9)] = above ++ extent :: below ∧
        List.Forall₂ (Block.FoundAt default clash.view) above blocks ∧
        Block.Refused default clash.view blocks extent fault (some .e101)
          [(⟨7, 0⟩, true), (⟨4, 0⟩, false)] := by
  have hgrid : extents (openings default grid.view) (schemaEnd default grid.view)
      = [(0, 4), (4, 7)] := by decide +kernel
  have hclash : extents (openings default clash.view) (schemaEnd default clash.view)
      = [(0, 4), (4, 7), (7, 9)] := by decide +kernel
  constructor
  · obtain ⟨schema, hschema⟩ : ∃ schema, Schema.read default "Shelf" grid.view = .ok schema :=
      exists_ok_of_isOk (by decide +kernel)
    obtain ⟨-, hfound, honce⟩ := (Schema.read_blocks default "Shelf" grid.view).1 schema hschema
    exact ⟨schema, hschema, hgrid ▸ hfound, honce⟩
  · obtain ⟨fault, hfault, hcode, hmarks⟩ : ∃ fault,
        Schema.read default "Shelf" clash.view = .error fault ∧
          fault.diagnostic.code = some .e101 ∧
          Block.marks fault = [(⟨7, 0⟩, true), (⟨4, 0⟩, false)] :=
      exists_error_of_decide _ (by decide +kernel)
    obtain ⟨above, extent, below, blocks, code, cells, hrows, hfound, -, hrefused, rfl, rfl⟩ :=
      (Schema.read_blocks default "Shelf" clash.view).2 fault hfault
    rw [hcode, hmarks] at hrefused
    exact ⟨fault, hfault, above, extent, below, blocks, hclash ▸ hrows, hfound, hrefused⟩

end Shelf
end TypedSheets

import Mathlib.Data.List.Forall2
import Mathlib.Data.List.Induction
import Mathlib.Data.List.Pairwise
import TypedSheets.Proofs.RowTyping
import TypedSheets.Proofs.Sameness

/-!
# What reading data rows ends in

Reading rows either gives all their values or stops at the first offence: rows are
taken in order, in each row the cells of its columns in order, and then its key.  Both
ends are told here without running the reader: which rows are accepted, and which
offence of the others comes first.

A list of rows that is accepted is read row by row, and the keys seen so far are those
of the rows so far; that is the invariant of the run.  Sameness of keys is an
equivalence, so a key that was seen was seen in one row only.

## Main definitions

* `Catalog.CellAccepted` — a cell that nothing is wrong with.
* `Catalog.Accepted` — rows that nothing is wrong with.
* `Catalog.FirstOffence` — the first offence, its code and the cells it is marked at.

## Main results

* `Catalog.readRows_of_accepted`, `Catalog.readRows_of_firstOffence` — what reading does.
* `Catalog.accepted_or_firstOffence` — every list of rows is one or the other.
* `Catalog.readRows_outcome` — **the exact outcome.**
-/

namespace TypedSheets
namespace Catalog

section Definitions

variable (catalog : Catalog) (view : View) (entity : Shape) (plans : List Plan)
  (keys : List String)

/-- A cell that nothing is wrong with: if it is blank, its path meets a list or ends in
a nullable slot, and if it is not, its text is a value of the type at the end of its
path. -/
def CellAccepted (row : Nat) (plan : Plan) : Prop :=
  (view.text? row plan.col = none →
    plan.meetsList = true ∨ plan.leaf.stored.isNullable = true) ∧
  ∀ text, view.text? row plan.col = some text →
    ∃ value, catalog.ofText plan.leaf text = .ok value

/-- A row that can be read has a key. -/
def HasKey (row : Nat) (key : Key) : Prop :=
  ∃ value, catalog.readRow view entity plans row = .ok value ∧ keyOf keys value = key

/-- Rows that nothing is wrong with: no cell of theirs, and no two of their keys. -/
structure Accepted (rows : List Nat) : Prop where
  cells : ∀ row ∈ rows, ∀ plan ∈ plans, catalog.CellAccepted view row plan
  distinct : rows.Pairwise fun first later => ∀ a b,
    catalog.HasKey view entity plans keys first a →
      catalog.HasKey view entity plans keys later b → a.same b = false

/-- The first offence of some rows, with its code and the cells it is marked at, each with
whether it is the one at fault.  The rows before it are accepted, and in its own row so
are the cells before it. -/
inductive FirstOffence (rows : List Nat) : Fault → FaultCode → List (Cell × Bool) → Prop
  /-- A cell is blank where a value is needed. -/
  | blank {before after : List Nat} {row : Nat} {left right : List Plan} {plan : Plan}
      (hrows : rows = before ++ row :: after)
      (hbefore : catalog.Accepted view entity plans keys before)
      (hplans : plans = left ++ plan :: right)
      (hleft : ∀ p ∈ left, catalog.CellAccepted view row p)
      (hblank : view.text? row plan.col = none)
      (hneeded : plan.meetsList = false ∧ plan.leaf.stored.isNullable = false) :
      FirstOffence rows (.missingValue plan.path (view.place row plan.col)) .e303
        [(view.place row plan.col, true)]
  /-- The text of a cell is no value of its type. -/
  | mismatch {before after : List Nat} {row : Nat} {left right : List Plan} {plan : Plan}
      {text : String} {error : Mismatch}
      (hrows : rows = before ++ row :: after)
      (hbefore : catalog.Accepted view entity plans keys before)
      (hplans : plans = left ++ plan :: right)
      (hleft : ∀ p ∈ left, catalog.CellAccepted view row p)
      (htext : view.text? row plan.col = some text)
      (herror : catalog.ofText plan.leaf text = .error error) :
      FirstOffence rows (.mismatch error (view.place row plan.col)) .e302
        [(view.place row plan.col, true)]
  /-- The key of a row is that of exactly one row before it. -/
  | repeatedKey {before after : List Nat} {row first : Nat} {key earlier : Key}
      (hrows : rows = before ++ row :: after)
      (hbefore : catalog.Accepted view entity plans keys before)
      (hcells : ∀ plan ∈ plans, catalog.CellAccepted view row plan)
      (hkey : catalog.HasKey view entity plans keys row key)
      (hfirst : first ∈ before)
      (hearlier : catalog.HasKey view entity plans keys first earlier)
      (hsame : key.same earlier = true)
      (honly : ∀ other ∈ before, ∀ k, catalog.HasKey view entity plans keys other k →
        key.same k = true → other = first) :
      FirstOffence rows (.repeatedKey key (view.place row 0) (view.place first 0)) .e304
        [(view.place row 0, true), (view.place first 0, false)]

end Definitions

variable {catalog : Catalog} {view : View} {entity : Shape} {plans : List Plan}
  {keys : List String}

/-! ### Cells -/

theorem mayBeBlank_iff {plan : Plan} : plan.mayBeBlank = true ↔
    plan.meetsList = true ∨ plan.leaf.stored.isNullable = true := by
  rw [Plan.mayBeBlank, Bool.or_eq_true]

theorem cellAccepted_iff {row : Nat} {plan : Plan} :
    catalog.CellAccepted view row plan ↔ catalog.cellFault? view row plan = none := by
  rw [CellAccepted, cellFault?, ← mayBeBlank_iff]
  cases htext : view.text? row plan.col with
  | none => simp
  | some text =>
    cases hread : catalog.ofText plan.leaf text with
    | ok value => simp [hread]
    | error e => simp [hread]

theorem rowFault?_eq_none_iff {row : Nat} :
    catalog.rowFault? view plans row = none ↔
      ∀ plan ∈ plans, catalog.CellAccepted view row plan := by
  simp [rowFault?, List.findSome?_eq_none_iff, cellAccepted_iff]

theorem exists_rowFault? {row : Nat}
    (h : ¬ ∀ plan ∈ plans, catalog.cellFault? view row plan = none) :
    ∃ fault, catalog.rowFault? view plans row = some fault := by
  rw [← List.findSome?_eq_none_iff] at h
  exact Option.ne_none_iff_exists'.mp h

/-- The first fault of a row is that of its first cell that is not accepted. -/
theorem rowFault?_eq_some_iff {row : Nat} {fault : Fault} :
    catalog.rowFault? view plans row = some fault ↔
      ∃ left plan right, plans = left ++ plan :: right ∧
        catalog.cellFault? view row plan = some fault ∧
        ∀ p ∈ left, catalog.CellAccepted view row p := by
  simp only [rowFault?, List.findSome?_eq_some_iff, cellAccepted_iff]

/-! ### Keys -/

theorem HasKey.unique {row : Nat} {a b : Key} (ha : catalog.HasKey view entity plans keys row a)
    (hb : catalog.HasKey view entity plans keys row b) : a = b := by
  obtain ⟨v, hv, rfl⟩ := ha
  obtain ⟨w, hw, rfl⟩ := hb
  rw [hv] at hw
  cases hw
  rfl

/-- Accepted rows with the same key are one row. -/
theorem Accepted.eq_of_same {rows : List Nat} (h : catalog.Accepted view entity plans keys rows)
    {a b : Nat} {ka kb : Key} (ha : a ∈ rows) (hb : b ∈ rows)
    (hka : catalog.HasKey view entity plans keys a ka)
    (hkb : catalog.HasKey view entity plans keys b kb) (hsame : ka.same kb = true) : a = b := by
  by_contra hne
  have hdiff : ka.same kb = false := by
    -- the pairs are ordered; as `same` is symmetric, either order will do
    have hsymm : Std.Symm fun first later => ∀ x y,
        catalog.HasKey view entity plans keys first x →
          catalog.HasKey view entity plans keys later y → x.same y = false := by
      refine ⟨?_⟩
      intro first later hxy x y hx hy
      rw [Key.same_comm]
      exact hxy y x hy hx
    exact h.distinct.forall ha hb hne ka kb hka hkb
  rw [hdiff] at hsame
  cases hsame

/-! ### Accepted rows -/

/-- The keys seen after some rows are those of these rows. -/
def Seen (catalog : Catalog) (view : View) (entity : Shape) (plans : List Plan)
    (keys : List String) (before : List Nat) (seen : List (Key × Nat)) : Prop :=
  ∀ key row, (key, row) ∈ seen ↔ row ∈ before ∧ catalog.HasKey view entity plans keys row key

theorem seen_nil : catalog.Seen view entity plans keys [] [] := by
  simp [Seen]

theorem Seen.snoc {before : List Nat} {seen : List (Key × Nat)} {row : Nat} {value : Value}
    (h : catalog.Seen view entity plans keys before seen)
    (hvalue : catalog.readRow view entity plans row = .ok value) :
    catalog.Seen view entity plans keys (before ++ [row]) ((keyOf keys value, row) :: seen) := by
  have hkey : catalog.HasKey view entity plans keys row (keyOf keys value) := ⟨value, hvalue, rfl⟩
  intro key other
  rw [List.mem_cons, List.mem_append, List.mem_singleton, h key other, Prod.mk.injEq]
  constructor
  · rintro (⟨rfl, rfl⟩ | ⟨hother, hk⟩)
    · exact ⟨Or.inr rfl, hkey⟩
    · exact ⟨Or.inl hother, hk⟩
  · rintro ⟨hother | rfl, hk⟩
    · exact Or.inr ⟨hother, hk⟩
    · exact Or.inl ⟨hk.unique hkey, rfl⟩

section Run

variable (hdistinct : catalog.DistinctNames) (hnames : entity.names.Nodup)
  (hplans : ∀ plan ∈ plans, plan.Sound catalog entity)

include hdistinct hnames hplans

theorem exists_readRow {row : Nat} (h : ∀ plan ∈ plans, catalog.CellAccepted view row plan) :
    ∃ value, catalog.readRow view entity plans row = .ok value := by
  obtain ⟨value, hvalue, -⟩ :=
    readRow_conforms hdistinct hnames hplans (rowFault?_eq_none_iff.mpr h)
  exact ⟨value, hvalue⟩

/-- **Accepted rows are read one by one**, whatever rows follow, and afterwards the keys
seen are those of the rows so far. -/
theorem readRows_append : ∀ (next : List Nat) {before : List Nat} {seen : List (Key × Nat)},
    catalog.Seen view entity plans keys before seen →
    catalog.Accepted view entity plans keys (before ++ next) →
    ∃ values later, catalog.Seen view entity plans keys (before ++ next) later ∧
      List.Forall₂ (fun row value => catalog.readRow view entity plans row = .ok value)
        next values ∧
      ∀ rest, catalog.readRows view entity plans keys (next ++ rest) seen
        = (catalog.readRows view entity plans keys rest later).map (values ++ ·) := by
  intro next
  induction next with
  | nil =>
    intro before seen hseen _
    refine ⟨[], seen, by simpa using hseen, List.Forall₂.nil, ?_⟩
    intro rest
    rw [List.nil_append]
    cases catalog.readRows view entity plans keys rest seen with
    | error fault => rfl
    | ok values => rfl
  | cons row next ih =>
    intro before seen hseen haccepted
    obtain ⟨value, hvalue⟩ :=
      exists_readRow hdistinct hnames hplans (haccepted.cells row (by simp))
    -- a key seen before is that of an earlier row, and differs from this one
    have hnew : (seen.find? fun entry => (keyOf keys value).same entry.1) = none := by
      rw [List.find?_eq_none]
      rintro ⟨key, first⟩ hentry
      obtain ⟨hfirst, hkey⟩ := (hseen key first).mp hentry
      have hpair := (List.pairwise_append.mp haccepted.distinct).2.2 first hfirst row (by simp)
      rw [Key.same_comm, hpair key _ hkey ⟨value, hvalue, rfl⟩]
      exact Bool.false_ne_true
    rw [List.append_cons] at haccepted ⊢
    obtain ⟨values, later, hlater, hread, hrun⟩ := ih (hseen.snoc hvalue) haccepted
    refine ⟨value :: values, later, hlater, List.Forall₂.cons hvalue hread, ?_⟩
    intro rest
    rw [List.cons_append, readRows_cons_of_new (next ++ rest) hvalue hnew, hrun rest]
    cases catalog.readRows view entity plans keys rest later with
    | error fault => rfl
    | ok values => rfl

theorem readRows_of_accepted {rows : List Nat}
    (h : catalog.Accepted view entity plans keys rows) :
    ∃ values, catalog.readRows view entity plans keys rows [] = .ok values ∧
      List.Forall₂ (fun row value => catalog.readRow view entity plans row = .ok value)
        rows values := by
  obtain ⟨values, later, -, hread, hrun⟩ :=
    readRows_append hdistinct hnames hplans rows seen_nil h
  refine ⟨values, ?_, hread⟩
  have hall := hrun []
  rw [List.append_nil] at hall
  rw [hall, readRows, Except.map, List.append_nil]

/-! ### The first offence -/

/-- A fault in the rows after accepted ones, whatever list of the accepted keys it is found
with, is the fault of all rows. -/
theorem readRows_append_error {before rest : List Nat} {fault : Fault}
    (h : catalog.Accepted view entity plans keys before)
    (hrest : ∀ seen, catalog.Seen view entity plans keys before seen →
      catalog.readRows view entity plans keys rest seen = .error fault) :
    catalog.readRows view entity plans keys (before ++ rest) [] = .error fault := by
  obtain ⟨values, later, hlater, -, hrun⟩ :=
    readRows_append hdistinct hnames hplans before seen_nil h
  rw [hrun rest, hrest later hlater, Except.map]

theorem readRows_of_rowFault? {before after : List Nat} {row : Nat} {fault : Fault}
    (h : catalog.Accepted view entity plans keys before)
    (hfault : catalog.rowFault? view plans row = some fault) :
    catalog.readRows view entity plans keys (before ++ row :: after) [] = .error fault := by
  refine readRows_append_error hdistinct hnames hplans h ?_
  intro seen _
  exact readRows_cons_of_error after (readRow_of_rowFault? hdistinct hnames hplans hfault)

/-- **The first offence is what stops the reading.** -/
theorem readRows_of_firstOffence {rows : List Nat} {fault : Fault} {code : FaultCode}
    {marks : List (Cell × Bool)}
    (h : catalog.FirstOffence view entity plans keys rows fault code marks) :
    catalog.readRows view entity plans keys rows [] = .error fault := by
  cases h with
  | @blank before after row left right plan hrows hbefore hsplit hleft hblank hneeded =>
    rw [hrows]
    refine readRows_of_rowFault? hdistinct hnames hplans hbefore ?_
    refine rowFault?_eq_some_iff.mpr ⟨left, plan, right, hsplit, ?_, hleft⟩
    rw [cellFault?, hblank, Plan.mayBeBlank, hneeded.1, hneeded.2]
    rfl
  | @mismatch before after row left right plan text error hrows hbefore hsplit hleft htext herror =>
    rw [hrows]
    refine readRows_of_rowFault? hdistinct hnames hplans hbefore ?_
    refine rowFault?_eq_some_iff.mpr ⟨left, plan, right, hsplit, ?_, hleft⟩
    rw [cellFault?, htext]
    simp only [herror]
  | @repeatedKey before after row first key earlier hrows hbefore hcells hkey hfirst hearlier
      hsame honly =>
    rw [hrows]
    refine readRows_append_error hdistinct hnames hplans hbefore ?_
    intro seen hseen
    obtain ⟨value, hvalue, rfl⟩ := hkey
    -- the key is found, and only the row that has it can be the one found
    cases hfind : seen.find? fun entry => (keyOf keys value).same entry.1 with
    | none =>
      have hnone := List.find?_eq_none.mp hfind _ ((hseen earlier first).mpr ⟨hfirst, hearlier⟩)
      exact absurd hsame hnone
    | some entry =>
      obtain ⟨hother, hk⟩ := (hseen entry.1 entry.2).mp (List.mem_of_find?_eq_some hfind)
      have hclash := List.find?_some hfind
      have hfound : entry.2 = first := honly _ hother _ hk hclash
      rw [readRows_cons_of_seen after hvalue hfind, hfound]

end Run

theorem FirstOffence.append {rows : List Nat} {fault : Fault} {code : FaultCode}
    {marks : List (Cell × Bool)}
    (h : catalog.FirstOffence view entity plans keys rows fault code marks) (more : List Nat) :
    catalog.FirstOffence view entity plans keys (rows ++ more) fault code marks := by
  cases h with
  | blank hrows hbefore hsplit hleft hblank hneeded =>
    exact .blank (by rw [hrows, List.append_assoc, List.cons_append])
      hbefore hsplit hleft hblank hneeded
  | mismatch hrows hbefore hsplit hleft htext herror =>
    exact .mismatch (by rw [hrows, List.append_assoc, List.cons_append])
      hbefore hsplit hleft htext herror
  | repeatedKey hrows hbefore hcells hkey hfirst hearlier hsame honly =>
    exact .repeatedKey (by rw [hrows, List.append_assoc, List.cons_append])
      hbefore hcells hkey hfirst hearlier hsame honly

/-- A row with a fault, after accepted rows, holds the first offence. -/
theorem firstOffence_of_rowFault? {before : List Nat} {row : Nat} {fault : Fault}
    (hbefore : catalog.Accepted view entity plans keys before)
    (h : catalog.rowFault? view plans row = some fault) :
    ∃ code marks,
      catalog.FirstOffence view entity plans keys (before ++ [row]) fault code marks := by
  obtain ⟨left, plan, right, hsplit, hcell, hleft⟩ := rowFault?_eq_some_iff.mp h
  -- a cell has two ways to be at fault: blank, or with a text that is no value
  rw [cellFault?] at hcell
  split at hcell
  · rename_i htext
    split at hcell
    · cases hcell
    · rename_i hmay
      cases hcell
      rw [mayBeBlank_iff, not_or, Bool.not_eq_true, Bool.not_eq_true] at hmay
      exact ⟨_, _, .blank rfl hbefore hsplit hleft htext hmay⟩
  · rename_i text htext
    split at hcell
    · cases hcell
    · rename_i error herror
      cases hcell
      exact ⟨_, _, .mismatch rfl hbefore hsplit hleft htext herror⟩

theorem Accepted.snoc {before : List Nat} {row : Nat} {key : Key}
    (h : catalog.Accepted view entity plans keys before)
    (hcells : ∀ plan ∈ plans, catalog.CellAccepted view row plan)
    (hkey : catalog.HasKey view entity plans keys row key)
    (hnew : ∀ first ∈ before, ∀ k, catalog.HasKey view entity plans keys first k →
      key.same k = false) :
    catalog.Accepted view entity plans keys (before ++ [row]) := by
  constructor
  · intro other hother
    rcases List.mem_append.mp hother with hother | hother
    · exact h.cells other hother
    · rw [List.mem_singleton.mp hother]
      exact hcells
  · refine List.pairwise_append.mpr ⟨h.distinct, List.pairwise_singleton _ _, ?_⟩
    intro first hfirst later hlater a b ha hb
    rw [List.mem_singleton.mp hlater] at hb
    rw [Key.same_comm, hb.unique hkey]
    exact hnew first hfirst a ha

/-- Every list of rows is accepted or has a first offence. -/
theorem accepted_or_firstOffence (hdistinct : catalog.DistinctNames)
    (hnames : entity.names.Nodup) (hplans : ∀ plan ∈ plans, plan.Sound catalog entity)
    (rows : List Nat) :
    catalog.Accepted view entity plans keys rows ∨
      ∃ fault code marks,
        catalog.FirstOffence view entity plans keys rows fault code marks := by
  -- whether a row offends depends on the rows before it, so the last row is split off
  induction rows using List.reverseRecOn with
  | nil => exact Or.inl ⟨by simp, List.Pairwise.nil⟩
  | append_singleton rows row ih =>
    rcases ih with hrows | ⟨fault, code, marks, hoffence⟩
    · cases hfault : catalog.rowFault? view plans row with
      | some fault => exact Or.inr ⟨fault, firstOffence_of_rowFault? hrows hfault⟩
      | none =>
        have hcells := rowFault?_eq_none_iff.mp hfault
        obtain ⟨value, hvalue⟩ := exists_readRow hdistinct hnames hplans hcells
        have hkey : catalog.HasKey view entity plans keys row (keyOf keys value) :=
          ⟨value, hvalue, rfl⟩
        by_cases hseen : ∃ first ∈ rows, ∃ k, catalog.HasKey view entity plans keys first k ∧
            (keyOf keys value).same k = true
        · obtain ⟨first, hfirst, k, hk, hsame⟩ := hseen
          refine Or.inr ⟨_, _, _, .repeatedKey rfl hrows hcells hkey hfirst hk hsame ?_⟩
          -- another row with this key would clash with the first one
          intro other hother k' hk' hsame'
          rw [Key.same_comm] at hsame'
          exact hrows.eq_of_same hother hfirst hk' hk (Key.same_trans hsame' hsame)
        · refine Or.inl (hrows.snoc hcells hkey ?_)
          intro first hfirst k hk
          rw [← Bool.not_eq_true]
          exact fun hsame => hseen ⟨first, hfirst, k, hk, hsame⟩
    · exact Or.inr ⟨fault, code, marks, hoffence.append [row]⟩

/-- Rows that are read are accepted, and their values are those of the rows one by one. -/
theorem accepted_of_readRows (hdistinct : catalog.DistinctNames) (hnames : entity.names.Nodup)
    (hplans : ∀ plan ∈ plans, plan.Sound catalog entity) {rows : List Nat} {values : List Value}
    (h : catalog.readRows view entity plans keys rows [] = .ok values) :
    catalog.Accepted view entity plans keys rows ∧
      List.Forall₂ (fun row value => catalog.readRow view entity plans row = .ok value)
        rows values := by
  rcases accepted_or_firstOffence hdistinct hnames hplans rows with
    haccepted | ⟨fault, code, marks, hoffence⟩
  · obtain ⟨values', hvalues', hread⟩ := readRows_of_accepted hdistinct hnames hplans haccepted
    rw [h] at hvalues'
    cases hvalues'
    exact ⟨haccepted, hread⟩
  · rw [readRows_of_firstOffence hdistinct hnames hplans hoffence] at h
    cases h

/-- **No two rows that are read have the same key.** -/
theorem same_eq_false_of_readRows (hdistinct : catalog.DistinctNames)
    (hnames : entity.names.Nodup) (hplans : ∀ plan ∈ plans, plan.Sound catalog entity)
    {rows : List Nat} {values : List Value}
    (h : catalog.readRows view entity plans keys rows [] = .ok values) {i j : Nat} (hne : i ≠ j)
    {a b : Value} (ha : values[i]? = some a) (hb : values[j]? = some b) :
    (keyOf keys a).same (keyOf keys b) = false := by
  obtain ⟨haccepted, hread⟩ := accepted_of_readRows hdistinct hnames hplans h
  obtain ⟨hi, rfl⟩ := List.getElem?_eq_some_iff.mp ha
  obtain ⟨hj, rfl⟩ := List.getElem?_eq_some_iff.mp hb
  have hlength := hread.length_eq
  -- the row and the value at one place have one key
  have hkey (k : Nat) (hk : k < values.length) :
      catalog.HasKey view entity plans keys (rows[k]) (keyOf keys values[k]) :=
    ⟨values[k], (List.forall₂_iff_get.mp hread).2 k (hlength ▸ hk) hk, rfl⟩
  have hpair := List.pairwise_iff_getElem.mp haccepted.distinct
  rcases Nat.lt_or_gt_of_ne hne with hlt | hlt
  · exact hpair i j (by omega) (by omega) hlt _ _ (hkey i hi) (hkey j hj)
  · rw [Key.same_comm]
    exact hpair j i (by omega) (by omega) hlt _ _ (hkey j hj) (hkey i hi)

/-- A fault that stops the reading is that of the first offence. -/
theorem firstOffence_of_readRows (hdistinct : catalog.DistinctNames)
    (hnames : entity.names.Nodup) (hplans : ∀ plan ∈ plans, plan.Sound catalog entity)
    {rows : List Nat} {fault : Fault}
    (h : catalog.readRows view entity plans keys rows [] = .error fault) :
    ∃ code marks, catalog.FirstOffence view entity plans keys rows fault code marks := by
  rcases accepted_or_firstOffence hdistinct hnames hplans rows with
    haccepted | ⟨fault', code, marks, hoffence⟩
  · obtain ⟨values, hvalues, -⟩ := readRows_of_accepted hdistinct hnames hplans haccepted
    rw [h] at hvalues
    cases hvalues
  · rw [readRows_of_firstOffence hdistinct hnames hplans hoffence] at h
    cases h
    exact ⟨code, marks, hoffence⟩

/-- The diagnostic of the first offence has its code, and is marked where it is. -/
theorem FirstOffence.diagnostic {rows : List Nat} {fault : Fault} {code : FaultCode}
    {marks : List (Cell × Bool)}
    (h : catalog.FirstOffence view entity plans keys rows fault code marks) :
    fault.diagnostic.code = some code ∧
      (fault.diagnostic.labels.map fun label => (label.cell, label.isPrimary)) = marks := by
  cases h with
  | blank => exact ⟨rfl, rfl⟩
  | mismatch => exact ⟨rfl, rfl⟩
  | repeatedKey => exact ⟨rfl, rfl⟩

/-- **The exact outcome of reading data rows.**  For every catalog whose shapes have
distinct names, every list of plans made from a row of paths, and all data rows: the
rows are read exactly if every blank cell may be blank, every other cell has a value of
its type, and no two keys are the same; there is one value for each row then, in their
order.  Otherwise the fault is that of the first offence, with the code of its kind and
marked at its cell, or at the repeating row and the one row before it with that key. -/
theorem readRows_outcome {dialect : Dialect} {paths : View} {pathRow : Nat}
    (hdistinct : catalog.DistinctNames) (hentity : catalog.entity = some entity)
    (hplans : Plan.ofRow dialect catalog entity paths pathRow = .ok plans)
    (view : View) (keys : List String) (rows : List Nat) :
    ((∃ values, catalog.readRows view entity plans keys rows [] = .ok values) ↔
      catalog.Accepted view entity plans keys rows) ∧
    (∀ values, catalog.readRows view entity plans keys rows [] = .ok values →
      List.Forall₂ (fun row value => catalog.readRow view entity plans row = .ok value)
        rows values) ∧
    ∀ fault, catalog.readRows view entity plans keys rows [] = .error fault ↔
      ∃ code marks, catalog.FirstOffence view entity plans keys rows fault code marks ∧
        fault.diagnostic.code = some code ∧
        (fault.diagnostic.labels.map fun label => (label.cell, label.isPrimary)) = marks := by
  have hnames := hdistinct.1 entity hentity
  have hsound := Plan.sound_of_ofRow hplans
  refine ⟨⟨?_, ?_⟩, ?_, ?_⟩
  · rintro ⟨values, hvalues⟩
    exact (accepted_of_readRows hdistinct hnames hsound hvalues).1
  · intro haccepted
    obtain ⟨values, hvalues, -⟩ := readRows_of_accepted hdistinct hnames hsound haccepted
    exact ⟨values, hvalues⟩
  · intro values hvalues
    exact (accepted_of_readRows hdistinct hnames hsound hvalues).2
  · intro fault
    constructor
    · intro hfault
      obtain ⟨code, marks, hoffence⟩ := firstOffence_of_readRows hdistinct hnames hsound hfault
      exact ⟨code, marks, hoffence, hoffence.diagnostic⟩
    · rintro ⟨code, marks, hoffence, -⟩
      exact readRows_of_firstOffence hdistinct hnames hsound hoffence

end Catalog

namespace Trees

/-- The first two rows are accepted.  With the third, the key of the first is repeated; when
the last row is read before it, a blank cell of that row is the first offence. -/
theorem readRows_outcome_view :
    catalog.Accepted view shape plans ["Id"] [1, 2] ∧
    (∃ fault, catalog.readRows view shape plans ["Id"] [1, 2, 3] [] = .error fault ∧
      catalog.FirstOffence view shape plans ["Id"] [1, 2, 3] fault .e304
        [(⟨3, 0⟩, true), (⟨1, 0⟩, false)]) ∧
    ∃ fault, catalog.readRows view shape plans ["Id"] [1, 4, 3] [] = .error fault ∧
      catalog.FirstOffence view shape plans ["Id"] [1, 4, 3] fault .e303 [(⟨4, 2⟩, true)] := by
  have houtcome := Catalog.readRows_outcome distinctNames rfl ofRow_view view ["Id"]
  -- code and marks are part of the fault, so evaluating it tells which offence it is
  have hoffence (rows : List Nat) (code : FaultCode) (marks : List (Cell × Bool))
      (h : ∃ fault, catalog.readRows view shape plans ["Id"] rows [] = .error fault ∧
        fault.diagnostic.code = some code ∧
        (fault.diagnostic.labels.map fun label => (label.cell, label.isPrimary)) = marks) :
      ∃ fault, catalog.readRows view shape plans ["Id"] rows [] = .error fault ∧
        catalog.FirstOffence view shape plans ["Id"] rows fault code marks := by
    obtain ⟨fault, hfault, hcode, hmarks⟩ := h
    obtain ⟨code', marks', hoffence, hcode', hmarks'⟩ := ((houtcome rows).2.2 fault).mp hfault
    obtain rfl := Option.some.inj (hcode.symm.trans hcode')
    obtain rfl := hmarks.symm.trans hmarks'
    exact ⟨fault, hfault, hoffence⟩
  refine ⟨(houtcome [1, 2]).1.mp ?_, hoffence [1, 2, 3] _ _ ?_, hoffence [1, 4, 3] _ _ ?_⟩
  · exact exists_ok_of_isOk (by decide +kernel)
  · exact exists_error_of_decide _ (by decide +kernel)
  · exact exists_error_of_decide _ (by decide +kernel)

end Trees
end TypedSheets

import Mathlib
import TypedSheets.Cell
import TypedSheets.Proofs.Numerals

/-!
# Cell references are read as they are written

The letters of a column are digits from one to twenty-six: without a zero, every number has
exactly one label, and taking the last digit off is division of the number before it.  So the
loop that writes a label and the one that reads it are inverse to each other at every number,
and the range of an index matters only to what may be read.

A reference is written in one way and read in many: in letters of either case, with a `$`
before each part, with zeros before the row and blanks around.  What is read from a text is the
cell whose written form is the text without all these.

## Main definitions

* `letterPlace`, `digitPlace` — what a letter and a digit count for, by their place in a row.
* `columnValue`, `rowValue` — the numbers of letters and of digits.
* `Cell.Spelled` — the parts of a reference.

## Main results

* `columnNumber_labelLetters`, `labelLetters_columnNumber` — **labels and numbers.**
* `Cell.ofA1Chars_of_spelled`, `Cell.exists_spelled` — reading by parts.
* `Cell.a1_exact` — **references are read exactly as they are written.**
-/

namespace TypedSheets

open Text

/-! ### Letters -/

/-- The capitals in the order of the alphabet. -/
def capitals : List Char :=
  ['A', 'B', 'C', 'D', 'E', 'F', 'G', 'H', 'I', 'J', 'K', 'L', 'M',
   'N', 'O', 'P', 'Q', 'R', 'S', 'T', 'U', 'V', 'W', 'X', 'Y', 'Z']

/-- The digits in order. -/
def numerals : List Char := ['0', '1', '2', '3', '4', '5', '6', '7', '8', '9']

/-- The place of a letter in the alphabet, counted from one, whatever its case. -/
def letterPlace (c : Char) : Nat := capitals.idxOf c.toUpper + 1

/-- The place of a digit among the digits. -/
def digitPlace (c : Char) : Nat := numerals.idxOf c

/-- The number of a run of letters in base twenty-six, with digits one to twenty-six. -/
def columnValue (letters : List Char) : Nat := Nat.ofDigits 26 (letters.map letterPlace).reverse

/-- The number of a run of decimal digits. -/
def rowValue (digits : List Char) : Nat := Nat.ofDigits 10 (digits.map digitPlace).reverse

theorem isUpper_iff_toNat {c : Char} : c.isUpper = true ↔ 65 ≤ c.toNat ∧ c.toNat ≤ 90 := by
  simp [Char.isUpper, UInt32.le_iff_toNat_le]

theorem isUpper_toUpper_of_isAlpha {c : Char} (h : c.isAlpha = true) :
    c.toUpper.isUpper = true := by
  rw [Char.isUpper_toUpper_eq_isAlpha, h]

theorem isAlpha_of_isUpper {c : Char} (h : c.isUpper = true) : c.isAlpha = true := by
  rw [Char.isAlpha, h, Bool.true_or]

/-- A capital is the letter of its number. -/
theorem letterOf_toNat {c : Char} (h : c.isUpper = true) : letterOf (c.toNat - 65) = c := by
  have hrange := isUpper_iff_toNat.mp h
  show Char.ofNat (65 + (c.toNat - 65)) = c
  rw [show 65 + (c.toNat - 65) = c.toNat by omega, Char.ofNat_toNat]

theorem isUpper_letterOf {d : Nat} (h : d < 26) : (letterOf d).isUpper = true := by
  interval_cases d <;> rfl

theorem letterValue_letterOf {d : Nat} (h : d < 26) : letterValue (letterOf d) = d + 1 := by
  interval_cases d <;> rfl

theorem letterValue_range {c : Char} (h : c.isAlpha = true) :
    1 ≤ letterValue c ∧ letterValue c ≤ 26 := by
  have hrange := isUpper_iff_toNat.mp (isUpper_toUpper_of_isAlpha h)
  show 1 ≤ c.toUpper.toNat - 65 + 1 ∧ c.toUpper.toNat - 65 + 1 ≤ 26
  omega

theorem letterOf_letterValue {c : Char} (h : c.isAlpha = true) :
    letterOf (letterValue c - 1) = c.toUpper :=
  letterOf_toNat (isUpper_toUpper_of_isAlpha h)

/-- A letter counts for its place in the alphabet. -/
theorem letterValue_eq_letterPlace {c : Char} (h : c.isAlpha = true) :
    letterValue c = letterPlace c := by
  have hplace : ∀ d < 26, capitals.idxOf (letterOf d) = d := by decide
  have hrange := letterValue_range h
  rw [letterPlace, ← letterOf_letterValue h, hplace _ (by omega)]
  omega

/-- A digit counts for its place among the digits. -/
theorem digitValue_eq_digitPlace {c : Char} (h : c.isDigit = true) :
    digitValue c = digitPlace c := by
  have hplace : ∀ d < 10, numerals.idxOf (Nat.digitChar d) = d := by decide
  rw [digitPlace, ← digitChar_digitValue h, hplace _ (digitValue_lt h), digitChar_digitValue h]

theorem columnNumber_eq_columnValue {letters : List Char}
    (h : ∀ c ∈ letters, c.isAlpha = true) : columnNumber letters = columnValue letters := by
  have hplaces : letters.map letterValue = letters.map letterPlace :=
    List.map_congr_left fun c hc => letterValue_eq_letterPlace (h c hc)
  rw [columnValue, ← hplaces, ← foldl_eq_ofDigits, columnNumber]
  simp only [Nat.mul_comm]

theorem decimalValue_eq_rowValue {digits : List Char}
    (h : ∀ c ∈ digits, c.isDigit = true) : decimalValue digits = rowValue digits := by
  have hplaces : digits.map digitValue = digits.map digitPlace :=
    List.map_congr_left fun c hc => digitValue_eq_digitPlace (h c hc)
  rw [rowValue, ← hplaces, ← foldl_eq_ofDigits, decimalValue]

/-! ### Labels -/

theorem columnNumber_snoc (letters : List Char) (c : Char) :
    columnNumber (letters ++ [c]) = columnNumber letters * 26 + letterValue c := by
  rw [columnNumber, List.foldl_append]
  rfl

/-- One turn of the loop that writes a label takes the last digit off. -/
theorem labelLetters_step {n v : Nat} (hlow : 1 ≤ v) (hhigh : v ≤ 26) (tail : List Char) :
    labelLetters (n * 26 + v) tail = labelLetters n (letterOf (v - 1) :: tail) := by
  have hdiv : (n * 26 + v - 1) / 26 = n := by omega
  have hmod : (n * 26 + v - 1) % 26 = v - 1 := by omega
  rw [labelLetters, dif_neg (by omega), hdiv, hmod]

/-- **The label of a number is made of the capitals of any letters for it.** -/
theorem labelLetters_columnNumber {letters : List Char} (h : ∀ c ∈ letters, c.isAlpha = true)
    (tail : List Char) :
    labelLetters (columnNumber letters) tail = letters.map Char.toUpper ++ tail := by
  induction letters using List.reverseRecOn generalizing tail with
  | nil => rw [show columnNumber [] = 0 from rfl, labelLetters, dif_pos rfl]; rfl
  | append_singleton letters c ih =>
    have hc : c.isAlpha = true := h c (by simp)
    obtain ⟨hlow, hhigh⟩ := letterValue_range hc
    rw [columnNumber_snoc, labelLetters_step hlow hhigh, ih fun d hd => h d (by simp [hd]),
      letterOf_letterValue hc, List.map_append, List.append_assoc]
    rfl

/-- **The number of a label.**  The loop that reads letters goes on from the number that is
left when the loop that writes them has put some before `tail`. -/
theorem foldl_labelLetters (n : Nat) (tail : List Char) :
    (labelLetters n tail).foldl (fun n c => n * 26 + letterValue c) 0
      = tail.foldl (fun n c => n * 26 + letterValue c) n := by
  fun_induction labelLetters n tail with
  | case1 tail => rfl
  | case2 n tail h ih =>
    have hdigit : (n - 1) % 26 < 26 := Nat.mod_lt _ (by decide)
    rw [ih, List.foldl_cons, letterValue_letterOf hdigit]
    congr 1
    omega

theorem columnNumber_labelLetters (n : Nat) : columnNumber (labelLetters n []) = n :=
  foldl_labelLetters n []

theorem isUpper_of_mem_labelLetters {n : Nat} {tail : List Char}
    (htail : ∀ c ∈ tail, c.isUpper = true) : ∀ c ∈ labelLetters n tail, c.isUpper = true := by
  fun_induction labelLetters n tail with
  | case1 tail => exact htail
  | case2 n tail h ih =>
    have hletter := isUpper_letterOf (Nat.mod_lt (n - 1) (show 26 > 0 by decide))
    exact ih (List.forall_mem_cons.mpr ⟨hletter, htail⟩)

theorem labelLetters_ne_nil {n : Nat} (h : n ≠ 0) : labelLetters n [] ≠ [] := by
  intro hnil
  have hnumber := columnNumber_labelLetters n
  rw [hnil] at hnumber
  exact h hnumber.symm

/-! ### Parts of a reference -/

namespace Cell

/-- The parts of a reference: letters, then digits, each after a `$` that may be left out. -/
structure Spelled (cs letters digits : List Char) : Prop where
  parts : ∃ marker ∈ [[], ['$']], ∃ marker' ∈ [[], ['$']],
    cs = marker ++ letters ++ marker' ++ digits
  letters_ne_nil : letters ≠ []
  digits_ne_nil : digits ≠ []
  isAlpha : ∀ c ∈ letters, c.isAlpha = true
  isDigit : ∀ c ∈ digits, c.isDigit = true

theorem isAlpha_of_isDigit {c : Char} (h : c.isDigit = true) : c.isAlpha = false := by
  have hrange := Char.isDigit_iff_toNat.mp h
  simp only [Char.reduceToNat] at hrange
  simp [Char.isAlpha, Char.isUpper, Char.isLower, UInt32.le_iff_toNat_le]
  omega

/-- What is left without the marker is what follows it. -/
theorem dropMarker_append {marker : List Char} (hmarker : marker ∈ [[], ['$']]) {c : Char}
    (hc : c ≠ '$') (cs : List Char) : dropMarker (marker ++ c :: cs) = c :: cs := by
  rcases List.mem_pair.mp hmarker with rfl | rfl
  · rw [List.nil_append, dropMarker.eq_def]
    split
    · next h => exact absurd (List.cons.inj h).1 hc
    · rfl
  · rfl

/-- A marker that is dropped is all that is lost. -/
theorem exists_marker (cs : List Char) : ∃ marker ∈ [[], ['$']], cs = marker ++ dropMarker cs := by
  rw [dropMarker.eq_def]
  split
  · exact ⟨['$'], by simp, rfl⟩
  · exact ⟨[], by simp, rfl⟩

/-- **A reference is read by its parts**: its letters and digits are found, and only their
numbers can be refused. -/
theorem ofA1Chars_of_spelled {cs letters digits : List Char} (h : Spelled cs letters digits) :
    ofA1Chars cs =
      if maxIndex < columnNumber letters then .error .invalidColumn
      else if decimalValue digits = 0 ∨ maxIndex < decimalValue digits then .error .invalidRow
      else .ok ⟨decimalValue digits - 1, columnNumber letters - 1⟩ := by
  obtain ⟨⟨marker, hmarker, marker', hmarker', rfl⟩, hletters, hdigits, halpha, hdigit⟩ := h
  obtain ⟨l, ls, rfl⟩ := List.exists_cons_of_ne_nil hletters
  obtain ⟨d, ds, rfl⟩ := List.exists_cons_of_ne_nil hdigits
  have hl : l ≠ '$' := by rintro rfl; exact absurd (halpha '$' (by simp)) (by decide)
  have hd : d ≠ '$' := by rintro rfl; exact absurd (hdigit '$' (by simp)) (by decide)
  -- neither a marker nor a digit goes on with the letters
  obtain ⟨c, rest, hrest, hc⟩ : ∃ c rest, marker' ++ d :: ds = c :: rest ∧ c.isAlpha = false := by
    rcases List.mem_pair.mp hmarker' with rfl | rfl
    · exact ⟨d, ds, rfl, isAlpha_of_isDigit (hdigit d (by simp))⟩
    · exact ⟨'$', d :: ds, rfl, rfl⟩
  have hafter : dropMarker (marker ++ (l :: ls) ++ marker' ++ (d :: ds))
      = (l :: ls) ++ (marker' ++ d :: ds) := by
    rw [List.append_assoc, List.append_assoc, List.cons_append, dropMarker_append hmarker hl]
  have htake : ((l :: ls) ++ (marker' ++ d :: ds)).takeWhile Char.isAlpha = l :: ls := by
    rw [List.takeWhile_append_of_pos halpha, hrest, List.takeWhile_cons_of_neg (by simp [hc]),
      List.append_nil]
  have hdrop : ((l :: ls) ++ (marker' ++ d :: ds)).dropWhile Char.isAlpha = marker' ++ d :: ds := by
    rw [List.dropWhile_append_of_pos halpha, hrest, List.dropWhile_cons_of_neg (by simp [hc])]
  have htake' : (d :: ds).takeWhile Char.isDigit = d :: ds := List.takeWhile_eq_self_iff.mpr hdigit
  have hdrop' : (d :: ds).dropWhile Char.isDigit = [] := List.dropWhile_eq_nil_iff.mpr hdigit
  rw [ofA1Chars, if_neg (by simp)]
  simp only [hafter, htake, hdrop, dropMarker_append hmarker' hd, htake', hdrop']
  simp

/-- Only references with all their parts are read. -/
theorem exists_spelled {cs : List Char} {cell : Cell} (h : ofA1Chars cs = .ok cell) :
    ∃ letters digits, Spelled cs letters digits := by
  obtain ⟨marker, hmarker, hcs⟩ := exists_marker cs
  obtain ⟨marker', hmarker', hafter⟩ := exists_marker ((dropMarker cs).dropWhile Char.isAlpha)
  rw [ofA1Chars] at h
  simp only at h
  split at h
  · cases h
  split at h
  · cases h
  next hletters =>
  split at h
  · cases h
  split at h
  · cases h
  next hdigits =>
  split at h
  · cases h
  next hrest =>
  refine ⟨(dropMarker cs).takeWhile Char.isAlpha,
    (dropMarker ((dropMarker cs).dropWhile Char.isAlpha)).takeWhile Char.isDigit,
    ⟨marker, hmarker, marker', hmarker', ?_⟩, by simpa using hletters, by simpa using hdigits,
    fun c hc => List.mem_takeWhile_imp hc, fun c hc => List.mem_takeWhile_imp hc⟩
  -- nothing follows the digits
  have hall : (dropMarker ((dropMarker cs).dropWhile Char.isAlpha)).takeWhile Char.isDigit
      = dropMarker ((dropMarker cs).dropWhile Char.isAlpha) :=
    List.takeWhile_eq_self_iff.mpr (by simpa using hrest)
  rw [hall, List.append_assoc, ← hafter, List.append_assoc, List.takeWhile_append_dropWhile, ← hcs]

theorem columnNumber_pos {letters : List Char} (h : ∀ c ∈ letters, c.isAlpha = true)
    (hne : letters ≠ []) : 0 < columnNumber letters := by
  refine Nat.pos_of_ne_zero fun h0 => hne ?_
  have hlabel := labelLetters_columnNumber h []
  rw [h0, labelLetters, dif_pos rfl, List.append_nil] at hlabel
  exact List.map_eq_nil_iff.mp hlabel.symm

/-- What the parts of a reference stand for, both numbers in range. -/
structure Counted (letters digits : List Char) (cell : Cell) : Prop where
  column : columnNumber letters = cell.col + 1
  column_le : cell.col + 1 ≤ maxIndex
  row : decimalValue digits = cell.row + 1
  row_le : cell.row + 1 ≤ maxIndex

theorem counted_of_ofA1Chars {cs letters digits : List Char} {cell : Cell}
    (hspelled : Spelled cs letters digits) (h : ofA1Chars cs = .ok cell) :
    Counted letters digits cell := by
  have hpos := columnNumber_pos hspelled.isAlpha hspelled.letters_ne_nil
  rw [ofA1Chars_of_spelled hspelled] at h
  split at h
  · cases h
  next hcolumn =>
  split at h
  · cases h
  next hrow =>
  cases h
  exact ⟨by simp only; omega, by simp only; omega, by simp only; omega, by simp only; omega⟩

/-- **The texts that are read as a cell**: those whose parts stand for it. -/
theorem ofA1_eq_ok_iff {text : String} {cell : Cell} : ofA1 text = .ok cell ↔
    ∃ letters digits, Spelled (trimChars text.toList) letters digits ∧
      Counted letters digits cell := by
  rw [ofA1]
  constructor
  · intro h
    obtain ⟨letters, digits, hspelled⟩ := exists_spelled h
    exact ⟨letters, digits, hspelled, counted_of_ofA1Chars hspelled h⟩
  · rintro ⟨letters, digits, hspelled, hcolumn, hcol, hdecimal, hrow⟩
    rw [ofA1Chars_of_spelled hspelled, hcolumn, hdecimal, if_neg (by omega), if_neg (by omega)]
    rfl

theorem toList_toA1 (cell : Cell) : cell.toA1.toList
    = labelLetters (cell.col + 1) [] ++ Nat.toDigits 10 (cell.row + 1) := by
  rw [toA1, columnName, String.toList_append, String.toList_ofList, Nat.toString_eq_repr,
    Nat.toList_repr]

/-- There are no blanks in a written reference. -/
theorem isBlankChar_of_mem_toA1 {cell : Cell} {c : Char} (h : c ∈ cell.toA1.toList) :
    isBlankChar c = false := by
  rw [toList_toA1, List.mem_append] at h
  rcases h with h | h
  · have hrange := isUpper_iff_toNat.mp (isUpper_of_mem_labelLetters (by simp) c h)
    exact isBlankChar_of_visible (by omega) (by omega)
  · exact isBlankChar_of_isDigit (isDigit_toDigits h)

/-- The parts of a written reference. -/
theorem spelled_toA1 (cell : Cell) : Spelled (trimChars cell.toA1.toList)
    (labelLetters (cell.col + 1) []) (Nat.toDigits 10 (cell.row + 1)) := by
  have hupper : ∀ c ∈ labelLetters (cell.col + 1) [], c.isUpper = true :=
    isUpper_of_mem_labelLetters (by simp)
  have hdigit : ∀ c ∈ Nat.toDigits 10 (cell.row + 1), c.isDigit = true :=
    fun c hc => isDigit_toDigits hc
  rw [trimChars_eq_self fun c hc => isBlankChar_of_mem_toA1 hc]
  exact ⟨⟨[], by simp, [], by simp, by simpa using toList_toA1 cell⟩,
    labelLetters_ne_nil (by omega), Nat.toDigits_ne_nil,
    fun c hc => isAlpha_of_isUpper (hupper c hc), hdigit⟩

/-! ### Reading what is written -/

/-- That the row and column of a cell can be counted from one inside of sixty-four bits. -/
def InRange (cell : Cell) : Prop := cell.row < 2 ^ 64 - 1 ∧ cell.col < 2 ^ 64 - 1

/-- **A written reference is read as its cell.** -/
theorem ofA1_toA1 {cell : Cell} (h : cell.InRange) : ofA1 cell.toA1 = .ok cell := by
  obtain ⟨hrow, hcol⟩ := h
  refine ofA1_eq_ok_iff.mpr ⟨_, _, spelled_toA1 cell, columnNumber_labelLetters _, ?_,
    decimalValue_toDigits _, ?_⟩
  · exact hcol
  · exact hrow

/-- **What is read is written as its capitals and its digits without leading zeros.** -/
theorem toA1_of_counted {letters digits : List Char} {cell : Cell}
    (halpha : ∀ c ∈ letters, c.isAlpha = true) (hdigit : ∀ c ∈ digits, c.isDigit = true)
    (h : Counted letters digits cell) :
    cell.toA1.toList = letters.map Char.toUpper ++ digits.dropWhile (· == '0') := by
  have hpos : 0 < decimalValue digits := by rw [h.row]; omega
  rw [toList_toA1, ← h.column, ← h.row, labelLetters_columnNumber halpha,
    toDigits_decimalValue hdigit hpos, List.append_nil]

/-- The loops that read the parts of a reference stay in range at every step. -/
theorem readDigits?_of_counted {letters digits : List Char} {cell : Cell}
    (h : Counted letters digits cell) :
    readDigits? 26 (letters.map letterValue) = some (cell.col + 1) ∧
      readDigits? 10 (digits.map digitValue) = some (cell.row + 1) := by
  have hletters : Nat.ofDigits 26 (letters.map letterValue).reverse = cell.col + 1 := by
    rw [← foldl_eq_ofDigits, ← h.column, columnNumber]
    simp only [Nat.mul_comm]
  have hdigits : Nat.ofDigits 10 (digits.map digitValue).reverse = cell.row + 1 := by
    rw [← foldl_eq_ofDigits, ← h.row, decimalValue]
  rw [readDigits?_eq (by decide), readDigits?_eq (by decide), hletters, hdigits, fitting?, fitting?,
    if_pos h.column_le, if_pos h.row_le]
  exact ⟨rfl, rfl⟩

/-- The numbers that the loop of a label goes through never grow. -/
theorem iterate_label_le (n k : Nat) : (fun n => (n - 1) / 26)^[k] n ≤ n := by
  induction k with
  | zero => exact Nat.le_refl n
  | succ k ih =>
    rw [Function.iterate_succ_apply']
    omega

/-- **References are read exactly as they are written.**
Every cell is read from its written form.  The texts that are read as a cell are those that
trim to letters and digits for it, each after a `$` or not, with both numbers in range.  So
cells have different written forms, and what is read is written again in capitals, without
markers and leading zeros.  The loops on both sides stay in range at every step: the letters
are no smaller than `A`, the products and sums of the digits are indices, and a label is
written from numbers that never grow, by letters up to `Z`. -/
theorem a1_exact :
    (∀ cell : Cell, cell.InRange → ofA1 cell.toA1 = .ok cell) ∧
    (∀ (text : String) (cell : Cell), ofA1 text = .ok cell ↔
      ∃ letters digits, Spelled (trimChars text.toList) letters digits ∧
        columnValue letters = cell.col + 1 ∧ cell.col + 1 ≤ 2 ^ 64 - 1 ∧
        rowValue digits = cell.row + 1 ∧ cell.row + 1 ≤ 2 ^ 64 - 1) ∧
    (∀ cell cell' : Cell, cell.InRange → cell'.InRange → cell.toA1 = cell'.toA1 → cell = cell') ∧
    (∀ (text : String) (cell : Cell) (letters digits : List Char), ofA1 text = .ok cell →
      Spelled (trimChars text.toList) letters digits →
        cell.toA1.toList = letters.map Char.toUpper ++ digits.dropWhile (· == '0') ∧
        (∀ c ∈ letters, 'A'.toNat ≤ c.toUpper.toNat) ∧
        readDigits? 26 (letters.map letterValue) = some (cell.col + 1) ∧
        readDigits? 10 (digits.map digitValue) = some (cell.row + 1)) ∧
    ∀ cell : Cell, cell.InRange → cell.row + 1 ≤ maxIndex ∧
      ∀ k, (fun n => (n - 1) / 26)^[k] (cell.col + 1) ≤ maxIndex ∧
        'A'.toNat + ((fun n => (n - 1) / 26)^[k] (cell.col + 1) - 1) % 26 ≤ 'Z'.toNat := by
  refine ⟨fun cell => ofA1_toA1, fun text cell => ?_, fun cell cell' h h' heq => ?_,
    fun text cell letters digits h hspelled => ?_, fun cell ⟨hrow, hcol⟩ => ⟨hrow, fun k => ?_⟩⟩
  · -- the reader counts by folds, the grammar by values: both agree on letters and digits
    rw [ofA1_eq_ok_iff]
    constructor
    · rintro ⟨letters, digits, hspelled, hcolumn, hcol, hdecimal, hrow⟩
      rw [columnNumber_eq_columnValue hspelled.isAlpha] at hcolumn
      rw [decimalValue_eq_rowValue hspelled.isDigit] at hdecimal
      exact ⟨letters, digits, hspelled, hcolumn, hcol, hdecimal, hrow⟩
    · rintro ⟨letters, digits, hspelled, hcolumn, hcol, hdecimal, hrow⟩
      rw [← columnNumber_eq_columnValue hspelled.isAlpha] at hcolumn
      rw [← decimalValue_eq_rowValue hspelled.isDigit] at hdecimal
      exact ⟨letters, digits, hspelled, hcolumn, hcol, hdecimal, hrow⟩
  · -- two cells with one text are both what it reads as
    have hread := ofA1_toA1 h
    rw [heq, ofA1_toA1 h'] at hread
    exact (Except.ok.inj hread).symm
  · have hcounted := counted_of_ofA1Chars hspelled h
    refine ⟨toA1_of_counted hspelled.isAlpha hspelled.isDigit hcounted, fun c hc => ?_,
      readDigits?_of_counted hcounted⟩
    exact (isUpper_iff_toNat.mp (isUpper_toUpper_of_isAlpha (hspelled.isAlpha c hc))).1
  · -- the number a label is written from only shrinks, and each letter is a remainder
    have hle : (fun n => (n - 1) / 26)^[k] (cell.col + 1) ≤ cell.col + 1 :=
      iterate_label_le (cell.col + 1) k
    have hmod := Nat.mod_lt ((fun n => (n - 1) / 26)^[k] (cell.col + 1) - 1) (show 26 > 0 by decide)
    refine ⟨Nat.le_trans hle hcol, ?_⟩
    simp only [Char.reduceToNat]
    omega

/-- The last cell that can be counted, and a reference that is not in its written form. -/
theorem a1_exact_last :
    (⟨2 ^ 64 - 2, 2 ^ 64 - 2⟩ : Cell).InRange ∧
    ofA1 (⟨2 ^ 64 - 2, 2 ^ 64 - 2⟩ : Cell).toA1 = .ok ⟨2 ^ 64 - 2, 2 ^ 64 - 2⟩ ∧
    ofA1 " $aB$007 " = .ok ⟨6, 27⟩ ∧
    Spelled (trimChars " $aB$007 ".toList) ['a', 'B'] ['0', '0', '7'] ∧
    (⟨6, 27⟩ : Cell).toA1.toList = ['A', 'B', '7'] := by
  have hlast : (⟨2 ^ 64 - 2, 2 ^ 64 - 2⟩ : Cell).InRange := ⟨by norm_num, by norm_num⟩
  have hspelled : Spelled (trimChars " $aB$007 ".toList) ['a', 'B'] ['0', '0', '7'] :=
    ⟨⟨['$'], by simp, ['$'], by simp, by decide⟩, by simp, by simp, by simp, by simp⟩
  obtain ⟨hround, hread, -, hwritten, -⟩ := a1_exact
  have htext : ofA1 " $aB$007 " = .ok ⟨6, 27⟩ :=
    (hread " $aB$007 " ⟨6, 27⟩).mpr ⟨_, _, hspelled, by decide, by norm_num, by decide, by norm_num⟩
  exact ⟨hlast, hround _ hlast, htext, hspelled, (hwritten _ _ _ _ htext hspelled).1⟩

end Cell
end TypedSheets

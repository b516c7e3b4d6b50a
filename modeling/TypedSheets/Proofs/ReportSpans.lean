import Mathlib
import TypedSheets.Report
import TypedSheets.Proofs.CellReferences

/-!
# Spans of reports

The text of a report is written label by label: the reference of the label, at the end of what is
there already, and a line feed behind it.  The span of a label is noted before its reference is
written, so its offset is the size of the text at that moment.  Sizes are counted in bytes, and the
name of a sheet may hold any characters, so neither the number of characters nor that of lines
says where a reference stands.

What one label adds leaves everything before it in its place.  By this the spans that have been
noted go on marking their references until the text is complete.

## Main definitions

* `Text.bytes`, `Span.stop` — byte ranges of texts.
* `Span.Marks` — a span that holds the reference of a label.
* `MarkedText`, `MarkedText.write` — a text with spans noted in it, and what a label adds.
* `MarkedText.OnLines` — spans that fill a text, up to a line feed behind each.

## Main results

* `MarkedText.marks_ofLabels`, `MarkedText.onLines_ofLabels` — what holds of a text that is written
  label by label.
* `MarkedText.ofLabels_eq` — **reports are written label by label.**
* `Diagnostic.headline_eq_iff` — the headline starts with the first reference, unless the name
  of the sheet has a line feed in it.
* `Diagnostic.report_marksReferences` — **the spans of a report are its references.**
-/

namespace TypedSheets

/-! ### Byte ranges -/

namespace Text

/-- The bytes of a text from one place up to another. -/
def bytes (text : String) (start stop : Nat) : ByteArray := text.toUTF8.extract start stop

/-- The bytes of a text stay where they are when more is written behind them. -/
theorem bytes_append_of_le {text : String} {stop : Nat} (h : stop ≤ text.utf8ByteSize)
    (more : String) (start : Nat) : bytes (text ++ more) start stop = bytes text start stop := by
  have hnone : more.toByteArray.extract (start - text.utf8ByteSize) (stop - text.utf8ByteSize)
      = ByteArray.empty := by
    rw [ByteArray.extract_eq_empty_iff]
    omega
  simp only [bytes, String.toUTF8_eq_toByteArray, String.toByteArray_append,
    ByteArray.extract_append, String.size_toByteArray, hnone, ByteArray.append_empty]

/-- A part of a text stands from the size of what is before it on. -/
theorem bytes_append (before part after : String) :
    bytes (before ++ part ++ after) before.utf8ByteSize (before.utf8ByteSize + part.utf8ByteSize)
      = part.toUTF8 := by
  rw [bytes_append_of_le (by rw [String.utf8ByteSize_append])]
  simp only [bytes, String.toUTF8_eq_toByteArray, String.toByteArray_append]
  exact ByteArray.extract_append_eq_right String.size_toByteArray.symm
    (by rw [String.size_toByteArray, String.size_toByteArray])

end Text

namespace Span

/-- The place behind a span. -/
def stop (span : Span) : Nat := span.offset + span.length

/-- That a span of a text holds the reference of a label, and says what the label says. -/
structure Marks (sheet text : String) (label : Label) (span : Span) : Prop where
  inside : span.stop ≤ text.utf8ByteSize
  bytes : Text.bytes text span.offset span.stop = (sheet ++ "!" ++ label.cell.toA1).toUTF8
  message : span.message = label.message
  isPrimary : span.isPrimary = label.isPrimary

theorem Marks.append {sheet text : String} {label : Label} {span : Span}
    (h : Marks sheet text label span) (more : String) : Marks sheet (text ++ more) label span where
  inside := by
    rw [String.utf8ByteSize_append]
    exact Nat.le_add_right_of_le h.inside
  bytes := by rw [Text.bytes_append_of_le h.inside, h.bytes]
  message := h.message
  isPrimary := h.isPrimary

end Span

/-! ### Writing label by label -/

/-- A text with the spans that have been noted in it. -/
structure MarkedText where
  text : String
  spans : List Span
  deriving DecidableEq, Repr

namespace MarkedText

/-- The span of a label whose reference is written next. -/
def nextSpan (sheet : String) (marked : MarkedText) (label : Label) : Span where
  offset := marked.text.utf8ByteSize
  length := (cellReference sheet label.cell).utf8ByteSize
  message := label.message
  isPrimary := label.isPrimary

/-- Notes the span of a label and writes its reference on a line of its own. -/
def write (sheet : String) (marked : MarkedText) (label : Label) : MarkedText where
  text := marked.text ++ cellReference sheet label.cell ++ "\n"
  spans := marked.spans ++ [nextSpan sheet marked label]

/-- The text of the references of some labels, with their spans. -/
def ofLabels (sheet : String) (labels : List Label) : MarkedText :=
  labels.foldl (write sheet) ⟨"", []⟩

/-- Spans that are all there is in a text, up to the line feed behind each of them. -/
structure OnLines (marked : MarkedText) : Prop where
  /-- The spans come one after the other, and no two of them share a byte. -/
  apart : marked.spans.Pairwise fun a b => a.stop < b.offset
  /-- There is a single byte between a span and the next one. -/
  adjacent : marked.spans.IsChain fun a b => b.offset = a.stop + 1
  /-- The byte behind a span is a line feed. -/
  feed : ∀ span ∈ marked.spans,
    Text.bytes marked.text span.stop (span.stop + 1) = "\n".toUTF8
  /-- The line feed behind the last span ends the text. -/
  last : ∀ span ∈ marked.spans.getLast?, span.stop + 1 = marked.text.utf8ByteSize
  /-- Every byte of the text belongs to a span or is the line feed behind it. -/
  whole : ∀ place, place < marked.text.utf8ByteSize ↔
    ∃ span ∈ marked.spans, span.offset ≤ place ∧ place ≤ span.stop

@[simp]
theorem ofLabels_nil (sheet : String) : ofLabels sheet [] = ⟨"", []⟩ := rfl

@[simp]
theorem ofLabels_append (sheet : String) (labels : List Label) (label : Label) :
    ofLabels sheet (labels ++ [label]) = (ofLabels sheet labels).write sheet label := by
  rw [ofLabels, List.foldl_append]
  rfl

theorem utf8ByteSize_write (sheet : String) (marked : MarkedText) (label : Label) :
    (marked.write sheet label).text.utf8ByteSize
      = (nextSpan sheet marked label).stop + 1 := by
  rw [write, String.utf8ByteSize_append, String.utf8ByteSize_append]
  rfl

/-- The reference that is written is the one that is marked. -/
theorem marks_nextSpan (sheet : String) (marked : MarkedText) (label : Label) :
    (nextSpan sheet marked label).Marks sheet (marked.write sheet label).text label where
  inside := by
    rw [utf8ByteSize_write]
    exact Nat.le_succ _
  bytes := Text.bytes_append marked.text (cellReference sheet label.cell) "\n"
  message := rfl
  isPrimary := rfl

/-- Marks keep their bytes when a label is written behind them. -/
theorem marks_write {sheet : String} {labels : List Label} {marked : MarkedText}
    (h : List.Forall₂ (Span.Marks sheet marked.text) labels marked.spans) (label : Label) :
    List.Forall₂ (Span.Marks sheet (marked.write sheet label).text) (labels ++ [label])
      (marked.write sheet label).spans := by
  refine List.rel_append (h.imp fun _ _ hmarks => ?_)
    (.cons (marks_nextSpan sheet marked label) .nil)
  exact (hmarks.append _).append _

/-- **Every label is marked**, however many have been written after it. -/
theorem marks_ofLabels (sheet : String) (labels : List Label) :
    List.Forall₂ (Span.Marks sheet (ofLabels sheet labels).text) labels
      (ofLabels sheet labels).spans := by
  induction labels using List.reverseRecOn with
  | nil => exact .nil
  | append_singleton labels label ih =>
    rw [ofLabels_append]
    exact marks_write ih label

theorem OnLines.stop_lt {marked : MarkedText} (h : marked.OnLines) {span : Span}
    (hspan : span ∈ marked.spans) : span.stop < marked.text.utf8ByteSize :=
  (h.whole span.stop).mpr ⟨span, hspan, Nat.le_add_right _ _, Nat.le_refl _⟩

/-- A further label goes behind the line feed that ends the text. -/
theorem OnLines.write {marked : MarkedText} (h : marked.OnLines) (sheet : String)
    (label : Label) : (marked.write sheet label).OnLines where
  apart := by
    refine List.pairwise_append.mpr ⟨h.apart, List.pairwise_singleton _ _, ?_⟩
    intro a ha b hb
    rw [List.mem_singleton.mp hb]
    exact h.stop_lt ha
  adjacent := by
    refine List.isChain_append.mpr ⟨h.adjacent, .singleton _, ?_⟩
    intro a ha b hb
    obtain rfl : nextSpan sheet marked label = b := by simpa using hb
    exact (h.last a ha).symm
  feed := by
    intro span hspan
    rcases List.mem_append.mp hspan with hspan | hspan
    · have hlt := h.stop_lt hspan
      rw [MarkedText.write, String.append_assoc, Text.bytes_append_of_le hlt, h.feed span hspan]
    · rw [List.mem_singleton.mp hspan]
      have hfeed := Text.bytes_append (marked.text ++ cellReference sheet label.cell) "\n" ""
      rwa [String.append_empty, String.utf8ByteSize_append] at hfeed
  last := by
    intro span hspan
    obtain rfl : nextSpan sheet marked label = span := by
      simpa [MarkedText.write] using hspan
    rw [utf8ByteSize_write]
  whole := by
    -- the bytes from the old end of the text to the new one are those of the new span and its feed
    intro place
    have hwhole := h.whole place
    have hsize : (nextSpan sheet marked label).offset = marked.text.utf8ByteSize := rfl
    have hstop : (nextSpan sheet marked label).offset ≤ (nextSpan sheet marked label).stop :=
      Nat.le_add_right _ _
    rw [utf8ByteSize_write]
    simp only [MarkedText.write, List.mem_append, List.mem_singleton, or_and_right, exists_or,
      exists_eq_left, ← hwhole]
    omega

/-- **The spans fill the text**, however many labels have been written. -/
theorem onLines_ofLabels (sheet : String) (labels : List Label) :
    (ofLabels sheet labels).OnLines := by
  induction labels using List.reverseRecOn with
  | nil => exact ⟨.nil, .nil, by simp, by simp, by simp⟩
  | append_singleton labels label ih =>
    rw [ofLabels_append]
    exact ih.write sheet label

end MarkedText

/-! ### The text of a report -/

theorem length_spansFrom (offset : Nat) (references : List String) :
    (spansFrom offset references).length = references.length := by
  induction references generalizing offset with
  | nil => rfl
  | cons reference rest ih => simp [spansFrom, ih]

theorem spansFrom_append (offset : Nat) (references : List String) (reference : String) :
    spansFrom offset (references ++ [reference]) = spansFrom offset references ++
      [(offset + (String.join (references.map (· ++ "\n"))).utf8ByteSize,
        reference.utf8ByteSize)] := by
  induction references generalizing offset with
  | nil => simp [spansFrom]
  | cons first rest ih =>
    have hsize : (first ++ "\n").utf8ByteSize = first.utf8ByteSize + 1 :=
      String.utf8ByteSize_append
    rw [List.cons_append, spansFrom, spansFrom, ih, List.map_cons, String.join_cons,
      String.utf8ByteSize_append, hsize, List.cons_append]
    simp only [Nat.add_assoc]

/-- The labels of a report are put to the places of the references and move none of them. -/
theorem Diagnostic.map_place_spans (diagnostic : Diagnostic) (sheet : String) :
    (diagnostic.spans sheet).map (fun span => (span.offset, span.length))
      = spansFrom 0 (diagnostic.references sheet) := by
  rw [spans, List.map_map]
  exact List.map_snd_zip (by rw [length_spansFrom, references, List.length_map])

/-- **Reports are written label by label**: adding up the sizes of references and line feeds gives
the size of the text at every step. -/
theorem MarkedText.ofLabels_eq (diagnostic : Diagnostic) (sheet : String) :
    ofLabels sheet diagnostic.labels
      = ⟨diagnostic.sourceText sheet, diagnostic.spans sheet⟩ := by
  obtain ⟨severity, code, message, labels, help⟩ := diagnostic
  -- from the end, as the loop adds labels there
  induction labels using List.reverseRecOn with
  | nil => rfl
  | append_singleton labels label ih =>
    have hlength : labels.length
        = (spansFrom 0 (labels.map fun label => cellReference sheet label.cell)).length := by
      rw [length_spansFrom, List.length_map]
    rw [ofLabels_append, ih, write, nextSpan]
    simp only [Diagnostic.sourceText, Diagnostic.spans, Diagnostic.references, List.map_append,
      List.map_cons, List.map_nil, spansFrom_append, List.zip_append hlength, String.join_append,
      String.join_cons, String.join_nil, String.append_empty, String.append_assoc, Nat.zero_add,
      List.zip_cons_cons, List.zip_nil_left]

/-- A name of four characters in five bytes, and a column of two letters. -/
example : (Diagnostic.mk .error none "duplicate key"
      [.primary ⟨4, 0⟩ "again", .secondary ⟨3, 26⟩ "first"] none).spans "Maße"
    = [⟨0, 8, "again", true⟩, ⟨9, 9, "first", false⟩] := by
  decide +kernel

/-! ### Headlines -/

namespace Text

theorem dropReturn_append (line : List Char) (c : Char) :
    dropReturn (line ++ [c]) = if c = '\r' then line else line ++ [c] := by
  rw [dropReturn, List.reverse_append, List.reverse_singleton, List.singleton_append]
  by_cases h : c = '\r'
  · subst h
    simp
  · rw [if_neg h]
    simp [h]

theorem mem_of_mem_dropReturn {c : Char} {line : List Char} (h : c ∈ dropReturn line) :
    c ∈ line := by
  rcases List.eq_nil_or_concat line with rfl | ⟨line, d, rfl⟩
  · exact h
  · rw [List.concat_eq_append, dropReturn_append] at h
    split at h
    · simp [h]
    · simpa using h

theorem head?_linesFrom (pending line rest : List Char) :
    (linesFrom pending (line ++ '\n' :: rest)).head?
      = some (dropReturn (pending.reverse ++ line.takeWhile (· ≠ '\n'))) := by
  induction line generalizing pending with
  | nil => simp [linesFrom]
  | cons c line ih =>
    by_cases h : c = '\n'
    · simp [linesFrom, h]
    · simp [linesFrom, h, ih]

/-- The first line of a text with a line feed in it. -/
theorem head?_lines (start rest : String) : (lines (start ++ "\n" ++ rest)).head?
    = some (String.ofList (dropReturn (start.toList.takeWhile (· ≠ '\n')))) := by
  have htext : (start ++ "\n" ++ rest).toList = start.toList ++ '\n' :: rest.toList := by simp
  rw [lines, List.head?_map, htext, head?_linesFrom]
  rfl

end Text

open Text

theorem newline_mem_cellReference (sheet : String) (cell : Cell) :
    '\n' ∈ (cellReference sheet cell).toList ↔ '\n' ∈ sheet.toList := by
  have hcell : '\n' ∉ cell.toA1.toList := fun h =>
    absurd (Cell.isBlankChar_of_mem_toA1 h) (by decide)
  simp [cellReference, hcell]

/-- References end with a digit, so they have no carriage return to lose. -/
theorem dropReturn_cellReference (sheet : String) (cell : Cell) :
    dropReturn (cellReference sheet cell).toList = (cellReference sheet cell).toList := by
  rcases List.eq_nil_or_concat cell.toA1.toList with hnil | ⟨start, c, hlast⟩
  · rw [Cell.toList_toA1] at hnil
    exact absurd (List.append_eq_nil_iff.mp hnil).2 Nat.toDigits_ne_nil
  · have hc : c ≠ '\r' := by
      rintro rfl
      have hmem : '\r' ∈ cell.toA1.toList := by simp [hlast]
      exact absurd (Cell.isBlankChar_of_mem_toA1 hmem) (by decide)
    rw [cellReference, String.toList_append, hlast, List.concat_eq_append, ← List.append_assoc,
      dropReturn_append, if_neg hc]

namespace Diagnostic

theorem headline_of_labels_eq_nil {diagnostic : Diagnostic} (h : diagnostic.labels = [])
    (sheet : String) : diagnostic.headline sheet = diagnostic.message := by
  have htext : diagnostic.sourceText sheet = "" := by
    rw [sourceText, references, h, List.map_nil, List.map_nil, String.join_nil]
  rw [headline, htext]
  rfl

theorem headline_of_labels_eq_cons {diagnostic : Diagnostic} {first : Label} {rest : List Label}
    (h : diagnostic.labels = first :: rest) (sheet : String) :
    diagnostic.headline sheet = String.ofList (dropReturn
        ((cellReference sheet first.cell).toList.takeWhile (· ≠ '\n')))
      ++ ": " ++ diagnostic.message := by
  have htext : diagnostic.sourceText sheet = cellReference sheet first.cell ++ "\n"
      ++ String.join ((rest.map fun label => cellReference sheet label.cell).map (· ++ "\n")) := by
    rw [sourceText, references, h, List.map_cons, List.map_cons, String.join_cons]
  rw [headline, htext, head?_lines]

/-- **The headline starts with the first reference**, unless a line feed in the name of the sheet
cuts it. -/
theorem headline_eq_iff {diagnostic : Diagnostic} {first : Label} {rest : List Label}
    (h : diagnostic.labels = first :: rest) (sheet : String) :
    diagnostic.headline sheet
        = cellReference sheet first.cell ++ ": " ++ diagnostic.message ↔ '\n' ∉ sheet.toList := by
  rw [headline_of_labels_eq_cons h, ← newline_mem_cellReference sheet first.cell]
  constructor
  · intro heq hmem
    -- the headline stops at the first line feed, so the reference would be its own first line
    have hline : dropReturn ((cellReference sheet first.cell).toList.takeWhile (· ≠ '\n'))
        = (cellReference sheet first.cell).toList := by
      have hlist := congrArg String.toList heq
      simpa only [String.toList_append, String.toList_ofList, List.append_assoc,
        List.append_cancel_right_eq] using hlist
    rw [← hline] at hmem
    simpa using List.mem_takeWhile_imp (mem_of_mem_dropReturn hmem)
  · intro hmem
    -- without a line feed the reference is a line of its own
    have hall : (cellReference sheet first.cell).toList.takeWhile (· ≠ '\n')
        = (cellReference sheet first.cell).toList := by
      refine List.takeWhile_eq_self_iff.mpr fun c hc => ?_
      have hne : c ≠ '\n' := fun hnewline => hmem (hnewline ▸ hc)
      simpa using hne
    rw [hall, dropReturn_cellReference, String.ofList_toList]

/-- A line break of two characters cuts the headline. -/
example : (Diagnostic.mk .error none "duplicate key" [.primary ⟨4, 0⟩ "again"] none).headline
    "left\r\nright" = "left: duplicate key" := by
  decide +kernel

/-- **The spans of a report are its references.**  Each label has a span of its own, in the order of
the labels, whose bytes are the name of the sheet, an exclamation mark and the cell of the label,
and which says what the label says.  The spans share no byte, a single line feed stands behind
each, and there is nothing else in the text.  The headline names the first of the references, if
there is one, exactly when no line feed in the name of the sheet cuts it. -/
theorem report_marksReferences (diagnostic : Diagnostic) (sheet : String) :
    List.Forall₂ (Span.Marks sheet (diagnostic.sourceText sheet)) diagnostic.labels
      (diagnostic.spans sheet) ∧
    MarkedText.OnLines ⟨diagnostic.sourceText sheet, diagnostic.spans sheet⟩ ∧
    (diagnostic.spans sheet).map (fun span => (span.offset, span.length))
      = spansFrom 0 (diagnostic.references sheet) ∧
    ((diagnostic.labels = [] ∧ (diagnostic.report sheet).sourceText = none ∧
        (diagnostic.report sheet).labels = none ∧
        (diagnostic.report sheet).display = diagnostic.message) ∨
      ∃ first rest, diagnostic.labels = first :: rest ∧
        (diagnostic.report sheet).sourceText = some (diagnostic.sourceText sheet) ∧
        (diagnostic.report sheet).labels = some (diagnostic.spans sheet) ∧
        ((diagnostic.report sheet).display
            = sheet ++ "!" ++ first.cell.toA1 ++ ": " ++ diagnostic.message ↔
          '\n' ∉ sheet.toList)) := by
  -- the text written label by label is the one the report shows
  have hwritten := MarkedText.ofLabels_eq diagnostic sheet
  have hmarks := MarkedText.marks_ofLabels sheet diagnostic.labels
  have hlines := MarkedText.onLines_ofLabels sheet diagnostic.labels
  rw [hwritten] at hmarks hlines
  refine ⟨hmarks, hlines, map_place_spans diagnostic sheet, ?_⟩
  cases hlabels : diagnostic.labels with
  | nil =>
    have hempty : diagnostic.labels.isEmpty = true := by rw [hlabels, List.isEmpty_nil]
    exact .inl ⟨rfl, if_pos hempty, if_pos hempty, headline_of_labels_eq_nil hlabels sheet⟩
  | cons first rest =>
    have hfilled : ¬ diagnostic.labels.isEmpty = true := by simp [hlabels]
    exact .inr ⟨first, rest, rfl, if_neg hfilled, if_neg hfilled, headline_eq_iff hlabels sheet⟩

end Diagnostic

end TypedSheets

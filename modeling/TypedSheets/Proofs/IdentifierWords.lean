import Mathlib
import TypedSheets.Casing

/-!
# Words of identifiers

An identifier stands for a list of words.  Each casing erases the bounds between the words in
its own way: the snake casings put an underscore there, the other two a capital.  A word that
starts with a small letter, and has no underscores and no capitals, leaves a mark that can be
found again, whatever else it is made of: digits and letters outside of ASCII have no case
here, so they neither hide a bound nor make up one.

Finding the words is the same for all casings once capitals are marked by underscores: what is
left is the list of the words with an underscore between them, or before each of them.

## Main definitions

* `Casing.IsWord` — a word whose bounds can be found again.

## Main results

* `Casing.pieces_flatMap` — underscored words are found.
* `Casing.words_join` — **the words of a written identifier.**
* `Casing.convert_join` — **an identifier of words is moved to the same words.**
* `Casing.convert_exact` — **conversion is exact on identifiers of words.**
-/

namespace TypedSheets
namespace Casing

/-- A word of identifiers: it starts with a small letter and has neither underscores nor
capitals. -/
def IsWord (word : String) : Prop :=
  word.toList.head?.any Char.isLower = true ∧
    ∀ c ∈ word.toList, c ≠ '_' ∧ c.isUpper = false

instance : DecidablePred IsWord := fun _ => inferInstanceAs (Decidable (_ ∧ _))

/-! ### Characters of words -/

namespace IsWord

variable {word : String}

theorem exists_cons (h : IsWord word) : ∃ c cs, word.toList = c :: cs ∧ c.isLower = true := by
  obtain ⟨hleads, -⟩ := h
  cases hword : word.toList with
  | nil => simp [hword] at hleads
  | cons c cs => exact ⟨c, cs, rfl, by simpa [hword] using hleads⟩

theorem toList_ne_nil (h : IsWord word) : word.toList ≠ [] := by
  obtain ⟨c, cs, hword, -⟩ := h.exists_cons
  simp [hword]

theorem underscore_notMem (h : IsWord word) : '_' ∉ word.toList :=
  fun hmem => (h.2 '_' hmem).1 rfl

end IsWord

theorem isUpper_toUpper {c : Char} (h : c.isLower = true) : c.toUpper.isUpper = true := by
  rw [Char.isUpper_toUpper_eq_isAlpha, Char.isAlpha, h, Bool.or_true]

/-- The case of a character that is no capital comes back. -/
theorem toLower_toUpper {c : Char} (h : c.isUpper = false) : c.toUpper.toLower = c := by
  rw [Char.toLower_toUpper_eq_toLower, Char.toLower_eq_of_not_isUpper (by simp [h])]

/-! ### Pieces between underscores -/

variable {words : List String}

theorem pieces_underscore (cs : List Char) : pieces ('_' :: cs) = pieces cs := by
  rw [pieces, List.splitOn_cons_eq_if_modifyHead, if_pos (by decide),
    List.filter_cons_of_neg (by simp), pieces]

/-- Words with an underscore between them. -/
theorem intercalate_cons (word : List Char) (words : List (List Char)) :
    ['_'].intercalate (word :: words) = word ++ words.flatMap ('_' :: ·) := by
  induction words generalizing word with
  | nil => simp
  | cons next rest ih => simp [List.intercalate_cons_cons, ih next]

/-- The words between underscores are found, none of them being empty. -/
theorem pieces_intercalate (h : ∀ word ∈ words, IsWord word) :
    pieces (['_'].intercalate (words.map String.toList)) = words := by
  cases words with
  | nil => rfl
  | cons word rest =>
    have hsplit : (['_'].intercalate ((word :: rest).map String.toList)).splitOn '_'
        = (word :: rest).map String.toList := by
      refine List.splitOn_intercalate '_' ?_ (by simp)
      simpa using fun w hw => (h w hw).underscore_notMem
    have hfilter : ((word :: rest).map String.toList).filter (fun piece => !piece.isEmpty)
        = (word :: rest).map String.toList := by
      refine List.filter_eq_self.mpr ?_
      simpa using fun w hw => (h w hw).toList_ne_nil
    rw [pieces, hsplit, hfilter, List.map_map]
    simp

/-- The words after underscores are found as well. -/
theorem pieces_flatMap (h : ∀ word ∈ words, IsWord word) :
    pieces (words.flatMap fun word => '_' :: word.toList) = words := by
  cases words with
  | nil => rfl
  | cons word rest =>
    have hjoin := intercalate_cons word.toList (rest.map String.toList)
    rw [List.flatMap_map, ← List.map_cons] at hjoin
    rw [List.flatMap_cons, List.cons_append, pieces_underscore, ← hjoin, pieces_intercalate h]

/-! ### Capitals -/

theorem markCapitals_append (cs ds : List Char) :
    markCapitals (cs ++ ds) = markCapitals cs ++ markCapitals ds := by
  induction cs with
  | nil => rfl
  | cons c cs ih =>
    rw [List.cons_append, markCapitals, markCapitals, ih]
    split
    · rfl
    · rfl

theorem markCapitals_eq_self {cs : List Char} (h : ∀ c ∈ cs, c.isUpper = false) :
    markCapitals cs = cs := by
  induction cs with
  | nil => rfl
  | cons c cs ih =>
    obtain ⟨hc, hcs⟩ := List.forall_mem_cons.mp h
    rw [markCapitals, if_neg (by simp [hc]), ih hcs]

/-- A capitalized word starts with its only capital. -/
theorem markCapitals_mapFirst {word : String} (h : IsWord word) :
    markCapitals (mapFirst Char.toUpper word.toList) = '_' :: word.toList := by
  obtain ⟨c, cs, hword, hlower⟩ := h.exists_cons
  have hplain : ∀ d ∈ c :: cs, d.isUpper = false := fun d hd => (h.2 d (hword ▸ hd)).2
  obtain ⟨hc, hcs⟩ := List.forall_mem_cons.mp hplain
  rw [hword, mapFirst, markCapitals, if_pos (isUpper_toUpper hlower), toLower_toUpper hc,
    markCapitals_eq_self hcs]

/-- Words run together are those with an underscore before each. -/
theorem markCapitals_flatMap (h : ∀ word ∈ words, IsWord word) :
    markCapitals (words.flatMap fun word => mapFirst Char.toUpper word.toList)
      = words.flatMap fun word => '_' :: word.toList := by
  induction words with
  | nil => rfl
  | cons word rest ih =>
    obtain ⟨hword, hrest⟩ := List.forall_mem_cons.mp h
    rw [List.flatMap_cons, markCapitals_append, markCapitals_mapFirst hword, ih hrest,
      List.flatMap_cons]

/-- A word that was capitalized and made small again is as it was. -/
theorem mapFirst_mapFirst {word : String} (h : IsWord word) :
    mapFirst Char.toLower (mapFirst Char.toUpper word.toList) = word.toList := by
  obtain ⟨c, cs, hword, -⟩ := h.exists_cons
  have hc : c.isUpper = false := (h.2 c (by simp [hword])).2
  rw [hword, mapFirst, mapFirst, toLower_toUpper hc]

/-! ### Written identifiers -/

theorem toList_joinPascal (words : List String) :
    (joinPascal words).toList = words.flatMap fun word => mapFirst Char.toUpper word.toList := by
  rw [joinPascal, String.toList_join, List.flatMap_map]
  simp [capitalized]

/-- The characters of the words with underscores between them hold no capitals. -/
theorem not_isUpper_intercalate (h : ∀ word ∈ words, IsWord word) :
    ∀ c ∈ ("_".intercalate words).toList, c.isUpper = false := by
  cases words with
  | nil => simp
  | cons word rest =>
    rw [String.toList_intercalate, List.map_cons]
    show ∀ c ∈ ['_'].intercalate _, _
    rw [intercalate_cons, List.flatMap_map]
    intro c hc
    rcases List.mem_append.mp hc with hc | hc
    · exact ((h word (by simp)).2 c hc).2
    · obtain ⟨next, hnext, hc⟩ := List.mem_flatMap.mp hc
      rcases List.mem_cons.mp hc with rfl | hc
      · rfl
      · exact ((h next (List.mem_cons_of_mem _ hnext)).2 c hc).2

/-- Text without capitals comes back from upper case. -/
theorem lower_upper {text : String} (h : ∀ c ∈ text.toList, c.isUpper = false) :
    lower (upper text) = text := by
  have hmap : text.toList.map (Char.toLower ∘ Char.toUpper) = text.toList := by
    conv_rhs => rw [← List.map_id text.toList]
    exact List.map_congr_left fun c hc => toLower_toUpper (h c hc)
  rw [lower, upper, String.toList_ofList, List.map_map, hmap, String.ofList_toList]

/-- What is left of a camel cased identifier once its capitals are marked: underscores between
the words, since the first word has lost its capital. -/
theorem markCapitals_uncapitalized (h : ∀ word ∈ words, IsWord word) :
    markCapitals (uncapitalized (joinPascal words)).toList
      = ['_'].intercalate (words.map String.toList) := by
  rw [uncapitalized, String.toList_ofList, toList_joinPascal]
  cases words with
  | nil => rfl
  | cons word rest =>
    obtain ⟨hword, hrest⟩ := List.forall_mem_cons.mp h
    obtain ⟨c, cs, hcs, -⟩ := hword.exists_cons
    have hfirst : mapFirst Char.toLower (mapFirst Char.toUpper word.toList ++
        rest.flatMap fun word => mapFirst Char.toUpper word.toList)
          = word.toList ++ rest.flatMap fun word => mapFirst Char.toUpper word.toList := by
      have hback := mapFirst_mapFirst hword
      rw [hcs] at hback ⊢
      simp only [mapFirst, List.cons_append] at hback ⊢
      rw [(List.cons.inj hback).1]
    rw [List.flatMap_cons, hfirst, markCapitals_append, markCapitals_flatMap hrest,
      markCapitals_eq_self fun d hd => (hword.2 d hd).2, List.map_cons, intercalate_cons,
      List.flatMap_map]

/-- **The words of a written identifier are found again**, under every casing. -/
theorem words_join (casing : Casing) (h : ∀ word ∈ words, IsWord word) :
    casing.words (casing.join words) = words := by
  have hsnake : pieces ("_".intercalate words).toList = words := by
    rw [String.toList_intercalate]
    exact pieces_intercalate h
  cases casing with
  | lowerSnake => exact hsnake
  | upperSnake =>
    show pieces ((upper ("_".intercalate words)).toList.map Char.toLower) = words
    have hlower := congrArg String.toList (lower_upper (not_isUpper_intercalate h))
    rw [lower, String.toList_ofList] at hlower
    rw [hlower, hsnake]
  | pascal =>
    show pieces (markCapitals (joinPascal words).toList) = words
    rw [toList_joinPascal, markCapitals_flatMap h, pieces_flatMap h]
  | camel =>
    show pieces (markCapitals (uncapitalized (joinPascal words)).toList) = words
    rw [markCapitals_uncapitalized h, pieces_intercalate h]

/-! ### Conversion -/

/-- The first letter of words run together is a capital already. -/
theorem capitalized_uncapitalized_joinPascal (h : ∀ word ∈ words, IsWord word) :
    capitalized (uncapitalized (joinPascal words)) = joinPascal words := by
  rw [← String.toList_inj, capitalized, uncapitalized, String.toList_ofList, String.toList_ofList,
    toList_joinPascal]
  cases words with
  | nil => rfl
  | cons word rest =>
    obtain ⟨hword, -⟩ := List.forall_mem_cons.mp h
    obtain ⟨c, cs, hcs, -⟩ := hword.exists_cons
    have hc : c.isUpper = false := (hword.2 c (by simp [hcs])).2
    simp only [List.flatMap_cons, hcs, mapFirst, List.cons_append, toLower_toUpper hc]

/-- **An identifier of words is moved to the same words**: the conversions that change letters
only do what finding the words and joining them does. -/
theorem convert_join (source target : Casing) (h : ∀ word ∈ words, IsWord word) :
    source.convert target (source.join words) = target.join words := by
  rw [convert.eq_def]
  split
  · next heq => rw [heq]
  · split
    · exact lower_upper (not_isUpper_intercalate h)
    · rfl
    · exact capitalized_uncapitalized_joinPascal h
    · rfl
    · rw [words_join source h]

/-- **Conversion is exact on identifiers of words.**  The words are found again, and they are
all that a conversion keeps: it gives the identifier of the same words, as the way through the
words does.  So conversions can be undone and put together, and different words are never
moved to one identifier, whatever casings they come from. -/
theorem convert_exact (source target : Casing) (words : List String)
    (h : ∀ word ∈ words, IsWord word) :
    source.words (source.join words) = words ∧
    source.convert target (source.join words) = target.join words ∧
    source.convert target (source.join words)
      = target.join (source.words (source.join words)) ∧
    target.convert source (source.convert target (source.join words)) = source.join words ∧
    (∀ last : Casing, target.convert last (source.convert target (source.join words))
      = source.convert last (source.join words)) ∧
    ∀ (other : Casing) (words' : List String), (∀ word ∈ words', IsWord word) → words' ≠ words →
      other.convert target (other.join words') ≠ source.convert target (source.join words) := by
  have hwords := words_join source h
  have hjoin := fun last => convert_join source last h
  refine ⟨hwords, hjoin target, by rw [hjoin, hwords], ?_, fun last => ?_, ?_⟩
  · rw [hjoin, convert_join target source h]
  · rw [hjoin, hjoin, convert_join target last h]
  · intro other words' h' hne heq
    rw [hjoin, convert_join other target h'] at heq
    apply hne
    -- both lists are what the words of the common identifier are
    calc words' = target.words (target.join words') := (words_join target h').symm
      _ = target.words (target.join words) := by rw [heq]
      _ = words := words_join target h

/-- Digits and letters outside of ASCII stand inside of words. -/
theorem convert_exact_slot :
    (∀ word ∈ ["slot2", "naïve"], IsWord word) ∧ (∀ word ∈ ["slot", "naïve"], IsWord word) ∧
    camel.words "slot2Naïve" = ["slot2", "naïve"] ∧
    camel.convert upperSnake "slot2Naïve" = "SLOT2_NAïVE" ∧
    upperSnake.convert camel (camel.convert upperSnake "slot2Naïve") = "slot2Naïve" ∧
    upperSnake.convert pascal (camel.convert upperSnake "slot2Naïve")
      = camel.convert pascal "slot2Naïve" ∧
    pascal.convert upperSnake (pascal.join ["slot", "naïve"])
      ≠ camel.convert upperSnake "slot2Naïve" := by
  have hwords : ∀ word ∈ ["slot2", "naïve"], IsWord word := by simp [IsWord]
  have hother : ∀ word ∈ ["slot", "naïve"], IsWord word := by simp [IsWord]
  have hcamel : camel.join ["slot2", "naïve"] = "slot2Naïve" := by decide +kernel
  have hupper : upperSnake.join ["slot2", "naïve"] = "SLOT2_NAïVE" := by decide +kernel
  obtain ⟨hfound, hconvert, -, hback, hlast, hapart⟩ :=
    convert_exact camel upperSnake ["slot2", "naïve"] hwords
  rw [hcamel] at hfound hconvert hback hlast hapart
  rw [hupper] at hconvert
  exact ⟨hwords, hother, hfound, hconvert, hback, hlast pascal,
    hapart pascal ["slot", "naïve"] hother (by decide)⟩

end Casing
end TypedSheets

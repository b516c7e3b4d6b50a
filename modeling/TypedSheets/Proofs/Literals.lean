import TypedSheets.Proofs.Conformance
import TypedSheets.Proofs.Result

/-!
# Cells hold conforming values

Whatever the text of a cell or a JSON tree is read as conforms to the type it is read
against: scalars and enumerations by the checks of their readers, lists and records by
induction over the tree.  An object starts from the zero of its record, which
conforms, and each member then overwrites one field.

## Main results

* `Scalar.admits_of_value?`, `Scalar.admits_of_ofJson?` — scalars.
* `Catalog.enumAdmits_of_ofEnumText?` — enumerations.
* `Catalog.ofJson_conforms` — **trees.**
* `Catalog.ofText_conforms` — **cell texts.**
-/

namespace TypedSheets

/-! ### Integers -/

theorem Scalar.range_of_holds {s : Scalar} {n : Int} (h : s.holds n = true) :
    Value.minInt ≤ n ∧ n ≤ Value.maxUInt := by
  cases s <;> simp [Scalar.holds, Scalar.range?] at h <;>
    simp only [Value.minInt, Value.maxUInt] <;> omega

/-- An integer in range is kept as it is, signed where it fits. -/
theorem Value.ofInteger_cases {n : Int} (hmin : Value.minInt ≤ n) (hmax : n ≤ Value.maxUInt) :
    (Value.ofInteger n = .int n ∧ n ≤ Value.maxInt) ∨
      ∃ k : Nat, Value.ofInteger n = .uint k ∧ (k : Int) = n ∧ Value.maxInt < n := by
  rw [Value.ofInteger]
  by_cases h : n ≤ Value.maxInt
  · exact Or.inl ⟨by simp [hmin, h], h⟩
  · have hpos : 0 ≤ n := by simp only [Value.maxInt] at h; omega
    refine Or.inr ⟨n.toNat, by simp [h, hpos, hmax], by omega, by omega⟩

theorem Scalar.admits_ofInteger {s : Scalar} {n : Int} (h : s.holds n = true) :
    s.Admits (.ofInteger n) := by
  obtain ⟨hmin, hmax⟩ := Scalar.range_of_holds h
  rcases Value.ofInteger_cases hmin hmax with ⟨heq, hle⟩ | ⟨k, heq, rfl, hlt⟩
  · rw [heq]; exact ⟨h, hmin, hle⟩
  · rw [heq]; exact ⟨h, Or.inr hlt⟩

/-! ### Scalars -/

/-- A single character that is left after trimming is no blank. -/
theorem Text.isBlankChar_of_trimChars {cs : List Char} {c : Char}
    (h : Text.trimChars cs = [c]) : Text.isBlankChar c = false := by
  have hdrop : (Text.dropBlanks cs).reverse.dropWhile Text.isBlankChar = [c] := by
    simpa [Text.trimChars, Text.dropBlanksEnd] using congrArg List.reverse h
  have hhead := List.head?_dropWhile_not Text.isBlankChar (Text.dropBlanks cs).reverse
  simpa [hdrop] using hhead

theorem Scalar.number?_spec {s : Scalar} {cs : List Char} {x : Double}
    (h : s.number? cs = some x) : x.isFinite = true ∧ (s ≠ .float ∨ x.fitsSingle = true) := by
  rw [Scalar.number?, Option.filter_eq_some_iff] at h
  simpa using h.2

theorem Scalar.admits_of_value? {s : Scalar} {text : String} {value : Value}
    (h : s.value? text = some value) : s.Admits value := by
  cases s with
  | bool =>
    simp only [Scalar.value?] at h
    split at h
    · cases h; rfl
    · split at h
      · cases h; rfl
      · cases h
  | char =>
    simp only [Scalar.value?] at h
    split at h
    · next c htrim =>
      cases h
      refine Or.inr ⟨rfl, by simp, ?_⟩
      simpa using Text.isBlankChar_of_trimChars htrim
    · cases h
  | string =>
    simp only [Scalar.value?, Option.some.injEq] at h
    subst h
    exact Or.inl rfl
  | float =>
    obtain ⟨x, hx, rfl⟩ := Option.map_eq_some_iff.mp h
    obtain ⟨hfinite, hsingle⟩ := Scalar.number?_spec hx
    exact ⟨hfinite, Or.inr (Or.inr ⟨rfl, by simpa using hsingle⟩)⟩
  | double =>
    obtain ⟨x, hx, rfl⟩ := Option.map_eq_some_iff.mp h
    exact ⟨(Scalar.number?_spec hx).1, Or.inl rfl⟩
  | decimal =>
    obtain ⟨x, hx, rfl⟩ := Option.map_eq_some_iff.mp h
    exact ⟨(Scalar.number?_spec hx).1, Or.inr (Or.inl rfl)⟩
  | _ =>
    -- the eight integer types
    obtain ⟨n, hn, rfl⟩ := Option.map_eq_some_iff.mp h
    exact Scalar.admits_ofInteger (Option.filter_eq_some_iff.mp hn).2

theorem Scalar.admits_of_ofDouble? {s : Scalar} {x : Double} {value : Value}
    (h : s.ofDouble? x = some value) : s.Admits value := by
  cases s with
  | float =>
    simp only [Scalar.ofDouble?] at h
    split at h
    · next hx =>
      cases h
      simp only [Bool.and_eq_true] at hx
      exact ⟨hx.1, Or.inr (Or.inr ⟨rfl, hx.2⟩)⟩
    · cases h
  | double =>
    simp only [Scalar.ofDouble?] at h
    split at h
    · next hx => cases h; exact ⟨hx, Or.inl rfl⟩
    · cases h
  | decimal =>
    simp only [Scalar.ofDouble?] at h
    split at h
    · next hx => cases h; exact ⟨hx, Or.inr (Or.inl rfl)⟩
    · cases h
  | _ => cases h

theorem Scalar.admits_of_ofJson? {s : Scalar} {json : Json} {value : Value}
    (h : s.ofJson? json = some value) : s.Admits value := by
  cases json with
  | str text => exact Scalar.admits_of_value? h
  | bool b =>
    simp only [Scalar.ofJson?] at h
    split at h
    · next hs => cases h; exact hs
    · cases h
  | int n =>
    simp only [Scalar.ofJson?] at h
    split at h
    · next hn => cases h; exact Scalar.admits_ofInteger hn
    · exact Scalar.admits_of_ofDouble? h
  | double x => exact Scalar.admits_of_ofDouble? h
  | null => cases h
  | arr items => cases h
  | obj members => cases h

namespace Catalog

variable {catalog : Catalog}

/-! ### Enumerations -/

theorem enumAdmits_of_numberValue? {name : String} {block : EnumDecl} {n : Int} {value : Value}
    (hblock : catalog.enum? name = some block) (h : catalog.numberValue? block n = some value) :
    catalog.EnumAdmits name value := by
  rw [numberValue?] at h
  split at h
  · next hholds =>
    split at h
    · next member hfind =>
      cases h
      exact ⟨block, hblock, member, List.mem_of_find?_eq_some hfind, rfl⟩
    · next hfind =>
      cases h
      -- a number without a member stays a number, signed where it fits
      have hnumber : catalog.HoldsNumber name n := by
        refine ⟨Or.inr ⟨block, hblock, hholds⟩, ?_⟩
        intro block' hblock' member hmember heq
        obtain rfl : block = block' := Option.some.inj (hblock.symm.trans hblock')
        simpa [heq] using List.find?_eq_none.mp hfind member hmember
      obtain ⟨hmin, hmax⟩ := Scalar.range_of_holds hholds
      rcases Value.ofInteger_cases hmin hmax with ⟨heq, hle⟩ | ⟨k, heq, rfl, hlt⟩
      · rw [heq]; exact ⟨hnumber, hmin, hle⟩
      · rw [heq]; exact ⟨hnumber, hlt⟩
  · cases h

/-- **A text of an enumeration is read as a member or as a number that no member has.** -/
theorem enumAdmits_of_ofEnumText? {name text : String} {value : Value}
    (h : catalog.ofEnumText? name text = some value) : catalog.EnumAdmits name value := by
  obtain ⟨block, hblock, h⟩ := Option.bind_eq_some_iff.mp h
  dsimp only at h
  split at h
  · next member hfind =>
    cases h
    exact ⟨block, hblock, member, List.mem_of_find?_eq_some hfind, rfl⟩
  · obtain ⟨n, -, h⟩ := Option.bind_eq_some_iff.mp h
    exact enumAdmits_of_numberValue? hblock h

/-! ### Trees -/

theorem ofNull_conforms {type : ResolvedType} {value : Value}
    (h : ofNull type = .ok value) : catalog.Conforms type value := by
  apply Conforms.of_stored
  rw [ofNull] at h
  split at h
  · next inner hstored => cases h; rw [hstored]; exact .noValue
  · next name hstored => cases h; rw [hstored]; exact .noRecord
  · next hstored => cases h; rw [hstored]; exact .scalar rfl
  · next element hstored => cases h; rw [hstored]; exact .list (by simp)
  · cases h

theorem ofLeaf_conforms {type : ResolvedType} {json : Json} {value : Value}
    (h : catalog.ofLeaf type json = .ok value) : catalog.Conforms type value := by
  cases type with
  | scalar s =>
    simp only [ofLeaf] at h
    split at h
    · next found hfound => cases h; exact .scalar (Scalar.admits_of_ofJson? hfound)
    · cases h
  | enum name =>
    simp only [ofLeaf] at h
    split at h
    · next found hfound =>
      cases h
      -- a text, or a number by its text
      split at hfound
      · exact .enum (enumAdmits_of_ofEnumText? hfound)
      · exact .enum (enumAdmits_of_ofEnumText? hfound)
      · exact .enum (enumAdmits_of_ofEnumText? hfound)
      · cases hfound
    · cases h
  | _ => cases h

/-- The field of a name is a field of the shape. -/
theorem field?_mem {shape : Shape} {name : String} {field : Field}
    (h : catalog.field? shape name = some field) : field ∈ shape.fields := by
  rw [field?, Shape.field?, Option.orElse_eq_or, Option.or_eq_some_iff] at h
  rcases h with h | ⟨-, h⟩
  · exact List.mem_of_find?_eq_some h
  · exact List.mem_of_find?_eq_some h

theorem zeroFields_conforms (hdistinct : catalog.DistinctNames) {name : String} {shape : Shape}
    (hshape : catalog.record? name = some shape) :
    catalog.RowConforms shape (.record (catalog.zeroFields (.record name))) := by
  rw [zeroFields, zero, hshape]
  exact rowConforms_ofList (hdistinct.of_record hshape) _ catalog.blank_conforms

theorem get?_zeroFields {name : String} {shape : Shape} (hnames : shape.names.Nodup)
    (hshape : catalog.record? name = some shape) {field : Field} (hfield : field ∈ shape.fields) :
    OrderedMap.get? (catalog.zeroFields (.record name)) field.emitted
      = some (catalog.blank field.type) := by
  simp only [zeroFields, zero, hshape, Value.fields?, Option.getD_some]
  exact Shape.get?_ofList hnames catalog.blank hfield

mutual

/-- **What a JSON tree is read as conforms to the type it is read against.** -/
theorem ofJson_conforms (hdistinct : catalog.DistinctNames) : ∀ (json : Json)
    {type : ResolvedType} {value : Value},
    ofJson catalog json type = .ok value → catalog.Conforms type value
  | .null, _, _, h => by
    rw [ofJson] at h
    exact ofNull_conforms h
  | .bool _, _, _, h => by
    rw [ofJson] at h
    exact (ofLeaf_conforms h).of_bare
  | .int _, _, _, h => by
    rw [ofJson] at h
    exact (ofLeaf_conforms h).of_bare
  | .double _, _, _, h => by
    rw [ofJson] at h
    exact (ofLeaf_conforms h).of_bare
  | .str _, _, _, h => by
    rw [ofJson] at h
    exact (ofLeaf_conforms h).of_bare
  | .arr items, type, _, h => by
    rw [ofJson] at h
    apply Conforms.of_bare
    split at h
    · next element htype =>
      obtain ⟨values, hvalues, rfl⟩ := map_eq_ok.mp h
      rw [htype]
      exact .list (ofItems_conforms hdistinct items hvalues)
    · cases h
  -- an object overwrites the fields of a new record, which conform
  | .obj members, type, _, h => by
    rw [ofJson] at h
    apply Conforms.of_bare
    split at h
    · next name htype =>
      rw [htype]
      split at h
      · next shape hshape =>
        obtain ⟨fields, hfields, rfl⟩ := map_eq_ok.mp h
        exact (ofMembers_conforms hdistinct (hdistinct.of_record hshape) members
          (zeroFields_conforms hdistinct hshape) hfields).conforms hshape
      · cases h
    · cases h

theorem ofItems_conforms (hdistinct : catalog.DistinctNames) : ∀ (items : List Json)
    {element : ResolvedType} {values : List Value},
    ofItems catalog items element = .ok values →
      ∀ value ∈ values, catalog.Conforms element value
  | [], _, _, h => by
    rw [ofItems] at h
    cases h
    simp
  | item :: items, _, _, h => by
    rw [ofItems] at h
    obtain ⟨value, hvalue, h⟩ := bind_eq_ok.mp h
    obtain ⟨values, hvalues, h⟩ := bind_eq_ok.mp h
    cases h
    exact List.forall_mem_cons.mpr
      ⟨ofJson_conforms hdistinct item hvalue, ofItems_conforms hdistinct items hvalues⟩

/-- Each member of an object overwrites one field, so the fields go on conforming. -/
theorem ofMembers_conforms (hdistinct : catalog.DistinctNames) {shape : Shape}
    (hnames : shape.names.Nodup) {unknown : Mismatch} : ∀ (members : List (String × Json))
    {fields result : List (String × Value)}, catalog.RowConforms shape (.record fields) →
      ofMembers catalog unknown shape members fields = .ok result →
        catalog.RowConforms shape (.record result)
  | [], _, _, hfields, h => by
    rw [ofMembers] at h
    cases h
    exact hfields
  | (name, item) :: members, _, _, hfields, h => by
    rw [ofMembers] at h
    split at h
    · next field hfield =>
      obtain ⟨value, hvalue, h⟩ := bind_eq_ok.mp h
      have hwritten := hfields.insert hnames (field?_mem hfield)
        (ofJson_conforms hdistinct item hvalue)
      exact ofMembers_conforms hdistinct hnames members hwritten h
    · cases h

end

/-! ### Cell texts -/

/-- **What the text of a cell is read as conforms to the type of the cell.** -/
theorem ofText_conforms (hdistinct : catalog.DistinctNames) {type : ResolvedType}
    {text : String} {value : Value} (h : catalog.ofText type text = .ok value) :
    catalog.Conforms type value := by
  apply Conforms.of_bare
  rw [ofText] at h
  -- scalars and enumerations have texts of their own, all else is JSON
  split at h
  · next s htype =>
    rw [htype]
    rw [Scalar.read] at h
    split at h
    · next found hfound => cases h; exact .scalar (Scalar.admits_of_value? hfound)
    · cases h
  · next name htype =>
    rw [htype]
    split at h
    · next found hfound => cases h; exact .enum (enumAdmits_of_ofEnumText? hfound)
    · cases h
  · split at h
    · next json hjson => exact ofJson_conforms hdistinct json h
    · cases h

end Catalog
end TypedSheets

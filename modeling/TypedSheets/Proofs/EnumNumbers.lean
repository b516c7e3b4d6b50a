import TypedSheets.CSharp.Emission
import TypedSheets.Proofs.Literals
import TypedSheets.Proofs.LocatedFaults
import TypedSheets.Proofs.Numerals
import TypedSheets.Proofs.WellFormedSchema

/-!
# Numbers of enumerations

The numbers of an enumeration are worked out twice: by the reader of its block, which counts
on from member to member, and by whoever compiles the generated code, where a member without a
number written for it follows the one before it.  The generated code repeats only the numbers
that the sheet writes, so the two have to count alike, over skipped rows and up to the ends of
the integer type.

The rule of generated code is said here on its own, without a counter.  By this rule every row
has a number, and a member is at fault if its text is no integer or if its number leaves the
integer type.  A block is refused for the first such member and for no other reason that has
to do with numbers.

## Main definitions

* `memberNumber`, `numbersAfter` — **the rule of generated code.**
* `CSharp.memberOfLine?`, `CSharp.numberedScopes` — members found in the text of generated code.
* `Table.BadAt`, `Table.FirstBad` — that a member is at fault, or the first one that is.
* `Table.NewNames` — that rows pass the checks of names.

## Main results

* `CSharp.numberedScopes_code` — the code of an enumeration declares its members.
* `Member.read_of_good`, `Member.read_of_bad` — **one member.**
* `Table.numbers_of_readRows`, `Table.readRows_cases` — **all members.**
* `Block.numbers_exact` — **the numbers of a block.**
-/

namespace TypedSheets

/-! ### The rule of generated code -/

/-- The number of a member: the one written for it, else one more than that of the member
before it, else zero. -/
def memberNumber : Option Int → Option Int → Int
  | _, some n => n
  | some previous, none => previous + 1
  | none, none => 0

/-- The numbers of members one after another, by what is written for each of them. -/
def numbersAfter : Option Int → List (Option Int) → List Int
  | _, [] => []
  | previous, explicit :: rest =>
    memberNumber previous explicit :: numbersAfter (some (memberNumber previous explicit)) rest

/-- A number is the one written, if there is one. -/
theorem memberNumber_some (previous : Option Int) (n : Int) :
    memberNumber previous (some n) = n := by
  cases previous <;> rfl

/-- A counter starts where a member without a number would. -/
theorem getD_memberNumber (previous explicit : Option Int) :
    explicit.getD (memberNumber previous none) = memberNumber previous explicit := by
  cases explicit with
  | none => rfl
  | some n => cases previous <;> rfl

/-- That a number fits in 128 bits, two's complement. -/
def Text.FitsWide (n : Int) : Prop := -maxWide - 1 ≤ n ∧ n ≤ maxWide

/-- The numbers of an integer type are far from the ends of 128 bits. -/
theorem Scalar.fitsWide_of_holds {s : Scalar} {n : Int} (h : s.holds n = true) :
    Text.FitsWide n ∧ Text.FitsWide (n + 1) := by
  obtain ⟨hmin, hmax⟩ := Scalar.range_of_holds h
  simp only [Text.FitsWide, Text.maxWide, Value.minInt, Value.maxUInt] at hmin hmax ⊢
  omega

/-! ### Members in generated code -/

namespace CSharp

/-- The member of an enumeration that a line of code declares: a name, and a number if one is
written for it. -/
def memberOfLine? (text : String) : Option (String × Option Int) :=
  let name := String.ofList (text.toList.takeWhile TypeToken.isIdentRest)
  match text.toList.dropWhile TypeToken.isIdentRest with
  | [','] => some (name, none)
  | ' ' :: '=' :: ' ' :: number =>
    if number.getLast? = some ',' then
      (Text.integer? number.dropLast).map fun n => (name, some n)
    else none
  | _ => none

/-- The member that a piece of code declares; only lines declare members. -/
def memberOfCode? : Code → Option (String × Option Int)
  | .line text => memberOfLine? text
  | .blank | .scope _ _ => none

/-- Members with their numbers, by the rule. -/
def numbered (members : List (String × Option Int)) : List (String × Int) :=
  (members.map Prod.fst).zip (numbersAfter none (members.map Prod.snd))

/-- The scopes of some code, each with the numbered members it declares. -/
def numberedScopes (code : List Code) : List (String × List (String × Int)) :=
  code.filterMap fun
    | .scope header body => some (header, numbered (body.filterMap memberOfCode?))
    | _ => none

/-- That a name is made of letters, digits and underscores. -/
def PlainName (name : String) : Prop := ∀ c ∈ name.toList, TypeToken.isIdentRest c = true

instance : DecidablePred PlainName := fun name =>
  decidable_of_iff (name.toList.all TypeToken.isIdentRest = true) List.all_eq_true

/-- A plain name is found before any character that belongs to no name. -/
theorem span_plainName {name : String} (h : PlainName name) (c : Char) (rest : List Char)
    (hc : TypeToken.isIdentRest c = false) :
    (name.toList ++ c :: rest).takeWhile TypeToken.isIdentRest = name.toList ∧
      (name.toList ++ c :: rest).dropWhile TypeToken.isIdentRest = c :: rest := by
  rw [List.takeWhile_append_of_pos h, List.dropWhile_append_of_pos h,
    List.takeWhile_cons_of_neg (by simp [hc]), List.dropWhile_cons_of_neg (by simp [hc]),
    List.append_nil]
  exact ⟨rfl, rfl⟩

/-- The line of a member without a number. -/
theorem memberOfLine?_plain {name : String} (h : PlainName name) :
    memberOfLine? (name ++ "" ++ ",") = some (name, none) := by
  obtain ⟨htake, hdrop⟩ := span_plainName h ',' [] (by decide)
  have hchars : (name ++ "" ++ ",").toList = name.toList ++ [','] := by simp
  rw [memberOfLine?, hchars, htake, hdrop]
  simp

/-- The line of a member with a number: the number is read back. -/
theorem memberOfLine?_numbered {name : String} (h : PlainName name) (n : Int) :
    memberOfLine? (name ++ (" = " ++ toString n) ++ ",") = some (name, some n) := by
  obtain ⟨htake, hdrop⟩ :=
    span_plainName h ' ' ('=' :: ' ' :: ((toString n).toList ++ [','])) (by decide)
  have hchars : (name ++ (" = " ++ toString n) ++ ",").toList
      = name.toList ++ ' ' :: '=' :: ' ' :: ((toString n).toList ++ [',']) := by simp
  rw [memberOfLine?, hchars, htake, hdrop, String.ofList_toList]
  show (if _ then _ else _) = _
  rw [if_pos (by simp), List.dropLast_concat, Text.integer?_toString, Option.map_some]

/-- Comments declare no members. -/
theorem members_remark (comment : Option String) :
    (Code.remark comment).filterMap memberOfCode? = [] := by
  cases comment with
  | none => rfl
  | some text =>
    have hline : ∀ rest : String,
        memberOfLine? ("/// <summary> " ++ rest ++ " </summary>") = none := by
      intro rest
      rw [memberOfLine?, String.toList_append, String.toList_append]
      rfl
    simp [Code.remark, memberOfCode?, hline]

/-- **The code of a member declares that member.** -/
theorem members_item {item : EnumItem} (h : PlainName item.name) :
    item.code.filterMap memberOfCode? = [(item.name, item.explicit)] := by
  rw [EnumItem.code, List.filterMap_append, members_remark, List.nil_append]
  cases hexplicit : item.explicit with
  | none => exact List.filterMap_cons_some (f := memberOfCode?) (memberOfLine?_plain h)
  | some n => exact List.filterMap_cons_some (f := memberOfCode?) (memberOfLine?_numbered h n)

/-- The code of an enumeration is one scope with its members. -/
theorem numberedScopes_code {type : EnumType} (h : ∀ item ∈ type.items, PlainName item.name) :
    numberedScopes type.code = [("public enum " ++ type.name ++ " : " ++ type.backing.keyword,
      numbered (type.items.map fun item => (item.name, item.explicit)))] := by
  have hmembers : (type.items.flatMap EnumItem.code).filterMap memberOfCode?
      = type.items.map fun item => (item.name, item.explicit) := by
    rw [List.filterMap_flatMap, ← List.flatMap_singleton' (type.items.map _), List.flatMap_map]
    exact List.flatMap_congr fun item hitem => members_item (h item hitem)
  have hsummary : numberedScopes (Code.summaryLines type.summary) = [] := by
    cases type.summary with
    | none => rfl
    | some text => simp [numberedScopes, Code.summaryLines]
  rw [EnumType.code, numberedScopes, List.filterMap_append, ← numberedScopes, hsummary,
    List.nil_append, ← hmembers]
  rfl

/-- The members of a generated enumeration have the numbers that are stored if these are the
numbers of the rule. -/
theorem numbered_enumOf (naming : NameStyle) (block : Block) {decl : EnumDecl}
    (h : decl.members.map Member.value = numbersAfter none (decl.members.map Member.explicit)) :
    numbered ((enumOf naming block decl).items.map fun item => (item.name, item.explicit))
      = decl.members.map fun member => (naming.enumMember member.name, member.value) := by
  simp only [numbered, enumOf, List.map_map]
  show (decl.members.map fun member => naming.enumMember member.name).zip
    (numbersAfter none (decl.members.map Member.explicit)) = _
  rw [← h, List.zip_map']

end CSharp

/-! ### One member -/

/-- That a fault is about the number in a cell. -/
def Fault.AtNumber (cell : Cell) (fault : Fault) : Prop :=
  fault.code? = some .e203 ∧ fault.labels = [.primary cell "invalid enum value"]

namespace Table

variable (table : Table) (backing : Scalar)

/-- The number written for a member, if an integer is. -/
def written? (row : Nat) : Option Int :=
  (table.text? row "Value").bind fun text => Text.integer? text.toList

/-- That something is written for the number of a member which is no integer. -/
def Misspelled (row : Nat) : Prop :=
  ∃ text, table.text? row "Value" = some text ∧ ∀ n, ¬ Text.Spells text.toList n

/-- That a member is at fault: what is written for its number is no integer, or its number
leaves the integer type. -/
def BadNumber (row : Nat) (number : Int) : Prop :=
  table.Misspelled row ∨ backing.holds number = false

/-- That the member of a row is at fault, by the rule of generated code. -/
def BadAt (previous : Option Int) (rows : List Nat) (i : Nat) : Prop :=
  ∃ row number, rows[i]? = some row ∧
    (numbersAfter previous (rows.map table.written?))[i]? = some number ∧
    table.BadNumber backing row number

end Table

namespace Member

variable {table : Table} {backing : Scalar} {previous : Option Int} {row : Nat}

/-- What is written for a number is read if it is an integer of 128 bits. -/
theorem explicitValue_of_fits (h : ¬ table.Misspelled row)
    (hfits : ∀ n, table.written? row = some n → Text.FitsWide n) :
    explicitValue table backing row = .ok (table.written? row) := by
  rw [Table.written?] at hfits ⊢
  rw [explicitValue]
  cases htext : table.text? row "Value" with
  | none => rfl
  | some text =>
    rw [htext, Option.bind_some] at hfits
    rw [Option.bind_some]
    cases hread : Text.integer? text.toList with
    | none => exact absurd ⟨text, htext, Text.integer?_eq_none_iff.mp hread⟩ h
    | some n =>
      obtain ⟨hmin, hmax⟩ := hfits n hread
      have hwide : Text.wideInteger? text.toList = some n := by
        rw [Text.wideInteger?, hread, Option.filter_some]
        simp [hmin, hmax]
      simp only [hwide]

/-- Integers that are far too large are not told from what is no integer. -/
theorem explicitValue_of_not_fits (backing : Scalar)
    (h : table.Misspelled row ∨ ∃ n, table.written? row = some n ∧ ¬ Text.FitsWide n) :
    ∃ text, explicitValue table backing row
      = .error (.notAnInteger text backing (table.place row "Value")) := by
  obtain ⟨text, htext, hwide⟩ :
      ∃ text, table.text? row "Value" = some text ∧ Text.wideInteger? text.toList = none := by
    rcases h with ⟨text, htext, hspells⟩ | ⟨n, hn, hlarge⟩
    · refine ⟨text, htext, ?_⟩
      rw [Text.wideInteger?, Text.integer?_eq_none_iff.mpr hspells, Option.filter_none]
    · obtain ⟨text, htext, hread⟩ := Option.bind_eq_some_iff.mp hn
      refine ⟨text, htext, ?_⟩
      rw [Text.wideInteger?, hread, Option.filter_some, if_neg]
      simpa [Text.FitsWide] using hlarge
  refine ⟨text, ?_⟩
  rw [explicitValue, htext]
  simp only [hwide]

/-- **A member that is not at fault** gets the number of the rule, and the counter goes on from
there. -/
theorem read_of_good (name : String)
    (h : ¬ table.BadNumber backing row (memberNumber previous (table.written? row))) :
    Member.read table backing (memberNumber previous none) row name = .ok
      (memberNumber (some (memberNumber previous (table.written? row))) none,
        ⟨name, table.written? row, memberNumber previous (table.written? row),
          table.text? row "Comment", table.origin row⟩) := by
  rw [Table.BadNumber, not_or, Bool.not_eq_false] at h
  obtain ⟨hspelled, hholds⟩ := h
  -- a number that the backing type holds is far from the limits of reading
  have hfits : ∀ n, table.written? row = some n → Text.FitsWide n := by
    intro n hn
    rw [hn, memberNumber_some] at hholds
    exact (Scalar.fitsWide_of_holds hholds).1
  rw [Member.read, explicitValue_of_fits hspelled hfits]
  show (if backing.holds ((table.written? row).getD _) = true then _ else _) = _
  rw [getD_memberNumber, if_pos hholds]
  rfl

/-- **A member at fault is refused** for its number. -/
theorem read_of_bad (name : String)
    (h : table.BadNumber backing row (memberNumber previous (table.written? row))) :
    ∃ fault, Member.read table backing (memberNumber previous none) row name = .error fault ∧
      fault.AtNumber (table.place row "Value") := by
  -- either the number cannot be read, or the one of the rule leaves the type
  by_cases hread : table.Misspelled row ∨ ∃ n, table.written? row = some n ∧ ¬ Text.FitsWide n
  · obtain ⟨text, htext⟩ := explicitValue_of_not_fits backing hread
    exact ⟨_, by rw [Member.read, htext]; rfl, rfl, rfl⟩
  · simp only [not_or, not_exists, not_and, not_not] at hread
    have hholds := h.resolve_left hread.1
    refine ⟨.outOfRange (memberNumber previous (table.written? row)) name backing
      (table.place row "Value"), ?_, rfl, rfl⟩
    rw [Member.read, explicitValue_of_fits hread.1 hread.2]
    show (if backing.holds ((table.written? row).getD _) = true then _ else _) = _
    rw [getD_memberNumber, if_neg (by simp [hholds])]
    rfl

end Member

/-! ### All members -/

namespace Table

variable {table : Table} {backing : Scalar}

/-- That rows pass the checks of names: every row has one, and no two rows have the same. -/
structure NewNames (table : Table) (rows : List Nat) : Prop where
  named : ∀ row ∈ rows, (table.text? row "Name").isSome = true
  distinct : (rows.map fun row => table.text? row "Name").Nodup

/-- In a table of an enumeration, rows with names pass the check for missing text. -/
theorem checkRow_of_named (hcolumns : table.columns = enumColumns) {row : Nat} {name : String}
    (h : table.text? row "Name" = some name) : table.checkRow row = .ok () := by
  obtain ⟨raw, hraw, -⟩ := Option.map_eq_some_iff.mp h
  obtain ⟨col, hcol, htext⟩ := Option.bind_eq_some_iff.mp hraw
  rw [checkRow, hcolumns]
  simp [enumColumns, Column.required, Column.extra, hcol, htext]

/-- A row with a new name is read by the step of its kind. -/
theorem readRows_cons {σ α : Type} {step : σ → Nat → String → Except Fault (σ × α)} {row : Nat}
    {rows : List Nat} {seen : List (String × Cell)} {state : σ} {name : String}
    (hcheck : table.checkRow row = .ok ()) (hname : table.text? row "Name" = some name)
    (hnew : name ∉ seen.map Prod.fst) :
    table.readRows step (row :: rows) seen state = step state row name >>= fun next =>
      (table.readRows step rows (OrderedMap.insert seen name (table.place row "Name")) next.1).map
        (next.2 :: ·) := by
  have hrequired : table.required row "Name" = .ok name := by rw [required, hname]
  rw [readRows, hcheck, hrequired]
  simp only [bind, Except.bind, OrderedMap.get?_eq_none_iff.mpr hnew]
  rfl

theorem badAt_zero {previous : Option Int} {row : Nat} {rows : List Nat} :
    table.BadAt backing previous (row :: rows) 0 ↔
      table.BadNumber backing row (memberNumber previous (table.written? row)) := by
  simp [BadAt, numbersAfter]

theorem badAt_succ {previous : Option Int} {row : Nat} {rows : List Nat} {i : Nat} :
    table.BadAt backing previous (row :: rows) (i + 1) ↔
      table.BadAt backing (some (memberNumber previous (table.written? row))) rows i := by
  simp [BadAt, numbersAfter]

/-- That a row holds the first member at fault. -/
def FirstBad (table : Table) (backing : Scalar) (previous : Option Int) (rows : List Nat)
    (row : Nat) : Prop :=
  ∃ i, rows[i]? = some row ∧ table.BadAt backing previous rows i ∧
    ∀ j < i, ¬ table.BadAt backing previous rows j

theorem FirstBad.cons {previous : Option Int} {row bad : Nat} {rows : List Nat}
    (hgood : ¬ table.BadNumber backing row (memberNumber previous (table.written? row)))
    (h : table.FirstBad backing (some (memberNumber previous (table.written? row))) rows bad) :
    table.FirstBad backing previous (row :: rows) bad := by
  obtain ⟨i, hrow, hbad, hfirst⟩ := h
  refine ⟨i + 1, hrow, badAt_succ.mpr hbad, fun j hj => ?_⟩
  cases j with
  | zero => exact badAt_zero.not.mpr hgood
  | succ j => exact badAt_succ.not.mpr (hfirst j (by omega))

/-- **What is read of members**: the numbers written for them, and the numbers of the rule. -/
theorem numbers_of_readRows : ∀ {rows : List Nat} {seen : List (String × Cell)}
    (previous : Option Int) {members : List Member},
    table.readRows (Member.read table backing) rows seen (memberNumber previous none)
      = .ok members →
    members.map Member.explicit = rows.map table.written? ∧
      members.map Member.value = numbersAfter previous (rows.map table.written?) ∧
      ∀ member ∈ members, backing.holds member.value = true := by
  intro rows
  induction rows with
  | nil =>
    intro seen previous members h
    cases h
    simp [numbersAfter]
  | cons row rows ih =>
    intro seen previous members h
    rw [readRows] at h
    obtain ⟨_, -, h⟩ := bind_eq_ok.mp h
    obtain ⟨name, -, h⟩ := bind_eq_ok.mp h
    split at h
    · cases h
    · obtain ⟨⟨next, member⟩, hmember, h⟩ := bind_eq_ok.mp h
      obtain ⟨rest, hrest, h⟩ := bind_eq_ok.mp h
      cases h
      -- a member that is read is not at fault, so it is the one of the rule
      have hgood : ¬ table.BadNumber backing row (memberNumber previous (table.written? row)) := by
        intro hbad
        obtain ⟨fault, hfault, -⟩ := Member.read_of_bad name hbad
        rw [hmember] at hfault
        cases hfault
      rw [Member.read_of_good name hgood] at hmember
      cases hmember
      obtain ⟨hexplicit, hvalues, hholds⟩ := ih _ hrest
      refine ⟨by rw [List.map_cons, List.map_cons, hexplicit],
        by rw [List.map_cons, List.map_cons, hvalues, numbersAfter], ?_⟩
      rw [BadNumber, not_or, Bool.not_eq_false] at hgood
      exact List.forall_mem_cons.mpr ⟨hgood.2, hholds⟩

/-- **Members are read, or refused for the first one at fault.**  The induction is over the
rows; what the names seen so far are does not matter, as long as they are others. -/
theorem readRows_cases (backing : Scalar) (hcolumns : table.columns = enumColumns) :
    ∀ {rows : List Nat} (seen : List (String × Cell)) (previous : Option Int),
      table.NewNames rows →
      (∀ row ∈ rows, ∀ name, table.text? row "Name" = some name → name ∉ seen.map Prod.fst) →
      (∃ members, table.readRows (Member.read table backing) rows seen (memberNumber previous none)
          = .ok members ∧ ∀ i, ¬ table.BadAt backing previous rows i) ∨
      ∃ row fault, table.readRows (Member.read table backing) rows seen
          (memberNumber previous none) = .error fault ∧
        table.FirstBad backing previous rows row ∧ fault.AtNumber (table.place row "Value") := by
  intro rows
  induction rows with
  | nil => exact fun seen previous _ _ => Or.inl ⟨[], rfl, by simp [BadAt]⟩
  | cons row rows ih =>
    intro seen previous hnames hfresh
    obtain ⟨name, hname⟩ := Option.isSome_iff_exists.mp (hnames.named row (by simp))
    rw [readRows_cons (checkRow_of_named hcolumns hname) hname (hfresh row (by simp) name hname)]
    -- the first row is at fault, or the counter goes on to the next one
    by_cases hbad : table.BadNumber backing row (memberNumber previous (table.written? row))
    · obtain ⟨fault, hfault, hat⟩ := Member.read_of_bad name hbad
      exact Or.inr ⟨row, fault, by rw [hfault]; rfl, ⟨0, rfl, badAt_zero.mpr hbad, by simp⟩, hat⟩
    · rw [Member.read_of_good name hbad]
      obtain ⟨hother, hdistinct⟩ := List.nodup_cons.mp hnames.distinct
      -- the names below are new beside this one as well
      have hlater : ∀ later ∈ rows, ∀ other, table.text? later "Name" = some other →
          other ∉ (OrderedMap.insert seen name (table.place row "Name")).map Prod.fst := by
        intro later hmem other htext
        have hne : name ≠ other := by
          rintro rfl
          exact hother (List.mem_map.mpr ⟨later, hmem, htext.trans hname.symm⟩)
        rw [← OrderedMap.get?_eq_none_iff, OrderedMap.get?_insert_of_ne _ _ hne,
          OrderedMap.get?_eq_none_iff]
        exact hfresh later (List.mem_cons_of_mem _ hmem) other htext
      have hrest : table.NewNames rows :=
        ⟨fun later hmem => hnames.named later (List.mem_cons_of_mem _ hmem), hdistinct⟩
      rcases ih _ (some (memberNumber previous (table.written? row))) hrest hlater
        with ⟨members, hread, hgood⟩ | ⟨bad, fault, hread, hfirst, hat⟩
      · refine Or.inl ⟨_, bind_eq_ok.mpr ⟨_, rfl, map_eq_ok.mpr ⟨_, hread, rfl⟩⟩, fun i => ?_⟩
        cases i with
        | zero => exact badAt_zero.not.mpr hbad
        | succ i => exact badAt_succ.not.mpr (hgood i)
      · exact Or.inr ⟨bad, fault, bind_eq_error.mpr (Or.inr ⟨_, rfl, map_eq_error.mpr hread⟩),
          hfirst.cons hbad, hat⟩

theorem FirstBad.exists_badAt {previous : Option Int} {rows : List Nat} {row : Nat}
    (h : table.FirstBad backing previous rows row) : ∃ i, table.BadAt backing previous rows i := by
  obtain ⟨i, -, hbad, -⟩ := h
  exact ⟨i, hbad⟩

/-- There is one first member at fault at most. -/
theorem FirstBad.unique {previous : Option Int} {rows : List Nat} {row other : Nat}
    (h : table.FirstBad backing previous rows row)
    (h' : table.FirstBad backing previous rows other) : row = other := by
  obtain ⟨i, hrow, hbad, hfirst⟩ := h
  obtain ⟨j, hother, hbad', hfirst'⟩ := h'
  obtain rfl : i = j := Nat.le_antisymm
    (Nat.le_of_not_lt fun hlt => hfirst j hlt hbad')
    (Nat.le_of_not_lt fun hlt => hfirst' i hlt hbad)
  exact Option.some.inj (hrow.symm.trans hother)

theorem columns_of_ofView {dialect : Dialect} {view : View} {columns : List Column}
    (h : Table.ofView dialect view columns = .ok table) : table.columns = columns := by
  rw [ofView] at h
  obtain ⟨_, -, h⟩ := bind_eq_ok.mp h
  split at h
  · cases h
  · cases h
    rfl

end Table

theorem Fault.AtNumber.unique {cell other : Cell} {fault : Fault} (h : fault.AtNumber cell)
    (h' : fault.AtNumber other) : cell = other := by
  have hlabels := h.2.symm.trans h'.2
  simpa [Label.primary] using hlabels

/-! ### Blocks -/

namespace Block

variable {dialect : Dialect} {view : View}

/-- The integer type of the enumeration in a block. -/
def backing (dialect : Dialect) (view : View) : Scalar :=
  enumScalar dialect ((((view.text? 0 0).map headerWords).getD []).drop 1)

/-- The members of an enumeration that is read. -/
theorem exists_readRows_of_read {block : Block} {decl : EnumDecl}
    (h : Block.read dialect .enum view = .ok block) (hbody : block.body = .enum decl) :
    ∃ table, Table.ofView dialect view enumColumns = .ok table ∧
      decl.backing = backing dialect view ∧
      table.readRows (Member.read table decl.backing) (table.elementRows dialect) [] 0
        = .ok decl.members := by
  rw [Block.read] at h
  obtain ⟨name, -, h⟩ := bind_eq_ok.mp h
  obtain ⟨body, hread, h⟩ := bind_eq_ok.mp h
  cases h
  cases hbody
  rw [BlockContent.read] at hread
  obtain ⟨_, hread, heq⟩ := map_eq_ok.mp hread
  cases heq
  rw [EnumDecl.read] at hread
  obtain ⟨table, htable, hread⟩ := bind_eq_ok.mp hread
  obtain ⟨members, hmembers, hread⟩ := bind_eq_ok.mp hread
  cases hread
  exact ⟨table, htable, rfl, hmembers⟩

/-- Once its name and its columns are found, an enumeration is refused for its members only. -/
theorem read_enum_eq_error_iff {name : Option String} {table : Table} {fault : Fault}
    (hname : blockName .enum view = .ok name)
    (htable : Table.ofView dialect view enumColumns = .ok table) :
    Block.read dialect .enum view = .error fault ↔
      table.readRows (Member.read table (backing dialect view)) (table.elementRows dialect) [] 0
        = .error fault := by
  rw [Block.read, hname]
  refine bind_ok_eq_error.trans (map_eq_error.trans ?_)
  rw [EnumDecl.read, htable]
  exact bind_ok_eq_error

/-- **A block with new names is read, or refused for the first member at fault.** -/
theorem read_enum_cases {name : Option String} {table : Table}
    (hname : blockName .enum view = .ok name)
    (htable : Table.ofView dialect view enumColumns = .ok table)
    (hnames : table.NewNames (table.elementRows dialect)) :
    (∃ block, Block.read dialect .enum view = .ok block ∧
      ∀ i, ¬ table.BadAt (backing dialect view) none (table.elementRows dialect) i) ∨
    ∃ row fault, Block.read dialect .enum view = .error fault ∧
      table.FirstBad (backing dialect view) none (table.elementRows dialect) row ∧
      fault.AtNumber (table.place row "Value") := by
  rcases Table.readRows_cases (backing dialect view) (Table.columns_of_ofView htable) [] none
    hnames (by simp) with ⟨members, hread, hgood⟩ | ⟨row, fault, hread, hfirst, hat⟩
  · -- with the name and the columns given, only the members can be refused
    cases hblock : Block.read dialect .enum view with
    | ok block => exact Or.inl ⟨block, rfl, hgood⟩
    | error fault =>
      have herror := (read_enum_eq_error_iff hname htable).mp hblock
      cases hread.symm.trans herror
  · exact Or.inr ⟨row, fault, (read_enum_eq_error_iff hname htable).mpr hread, hfirst, hat⟩

end Block

/-- **The numbers of an enumeration.**  Of a block that is read: the generated members, numbered
by the rule of generated code, have the numbers that are stored, and so have those that are
found in the text of the generated code if names are plain; all of them fit the generated
integer type, and so near to its ends no count leaves 128 bits.  What is stored are the numbers
that the sheet writes, and those of the rule.

A block with a name, columns and new names of members is refused for a number if and only if
some member is at fault by the rule: what is written for it is no integer, or its number leaves
the integer type.  It is refused at the cell for the number of the first such member, which is
the first cell of its row if the block has no column of numbers.  Otherwise it is read. -/
theorem Block.numbers_exact (dialect : Dialect) (view : View) :
    (∀ block decl, Block.read dialect .enum view = .ok block → block.body = .enum decl →
      (∀ naming : NameStyle,
        CSharp.numbered ((CSharp.enumOf naming block decl).items.map fun item =>
            (item.name, item.explicit))
          = decl.members.map (fun member => (naming.enumMember member.name, member.value)) ∧
        (∀ member ∈ decl.members,
          (CSharp.enumOf naming block decl).backing.holds member.value = true ∧
            Text.FitsWide (member.value + 1)) ∧
        ((∀ member ∈ decl.members, CSharp.PlainName (naming.enumMember member.name)) →
          CSharp.numberedScopes (CSharp.enumOf naming block decl).code
            = [("public enum " ++ naming.enumName block.label ++ " : " ++ decl.backing.keyword,
                decl.members.map fun member =>
                  (naming.enumMember member.name, member.value))])) ∧
      ∃ table, Table.ofView dialect view enumColumns = .ok table ∧
        decl.members.map Member.explicit
          = (table.elementRows dialect).map table.written? ∧
        decl.members.map Member.value
          = numbersAfter none ((table.elementRows dialect).map table.written?)) ∧
    ∀ name table, blockName .enum view = .ok name →
      Table.ofView dialect view enumColumns = .ok table →
      table.NewNames (table.elementRows dialect) →
      ((∃ fault, Block.read dialect .enum view = .error fault ∧ fault.code? = some .e203) ↔
        ∃ i, table.BadAt (Block.backing dialect view) none (table.elementRows dialect) i) ∧
      (∀ cell, (∃ fault, Block.read dialect .enum view = .error fault ∧ fault.AtNumber cell) ↔
        ∃ row, table.FirstBad (Block.backing dialect view) none (table.elementRows dialect) row ∧
          table.place row "Value" = cell) ∧
      ((∃ block, Block.read dialect .enum view = .ok block) ↔
        ∀ i, ¬ table.BadAt (Block.backing dialect view) none (table.elementRows dialect) i) := by
  refine ⟨fun block decl hread hbody => ?read, fun name table hname htable hnames => ?refused⟩
  case read =>
    obtain ⟨table, htable, -, hrows⟩ := exists_readRows_of_read hread hbody
    -- the numbers of the members are those that the generated code counts
    obtain ⟨hexplicit, hvalues, hholds⟩ := Table.numbers_of_readRows none hrows
    have hnumbered := fun naming => CSharp.numbered_enumOf naming block (hexplicit ▸ hvalues)
    refine ⟨fun naming => ⟨hnumbered naming, fun member hmember => ?_, fun hplain => ?_⟩,
      table, htable, hexplicit, hvalues⟩
    · exact ⟨hholds member hmember, (Scalar.fitsWide_of_holds (hholds member hmember)).2⟩
    · rw [CSharp.numberedScopes_code, hnumbered]
      · rfl
      · simpa [CSharp.enumOf] using hplain
  case refused =>
    rcases read_enum_cases hname htable hnames
      with ⟨block, hread, hgood⟩ | ⟨row, fault, hread, hfirst, hat⟩
    · -- the block is read: no fault on one side, no member at fault on the other
      have hnoError : ∀ fault, Block.read dialect .enum view ≠ .error fault := by simp [hread]
      have hnoBad := not_exists.mpr hgood
      refine ⟨⟨?_, fun h => absurd h hnoBad⟩, fun cell => ⟨?_, ?_⟩, fun _ => hgood,
        fun _ => ⟨block, hread⟩⟩
      · rintro ⟨fault, hfault, -⟩
        exact absurd hfault (hnoError fault)
      · rintro ⟨fault, hfault, -⟩
        exact absurd hfault (hnoError fault)
      · rintro ⟨row, hfirst, -⟩
        exact absurd hfirst.exists_badAt hnoBad
    · -- the block is refused, at the one cell of the first member at fault
      have hbad := hfirst.exists_badAt
      refine ⟨⟨fun _ => hbad, fun _ => ⟨fault, hread, hat.1⟩⟩, fun cell => ⟨?_, ?_⟩, ?_,
        fun hgood => absurd hbad (not_exists.mpr hgood)⟩
      · rintro ⟨other, hother, hcell⟩
        cases hread.symm.trans hother
        exact ⟨row, hfirst, hat.unique hcell⟩
      · rintro ⟨other, hother, rfl⟩
        rw [hother.unique hfirst]
        exact ⟨fault, hread, hat⟩
      · rintro ⟨block, hblock⟩
        cases hread.symm.trans hblock

/-! ### Members near the ends of their type -/

namespace Tide

/-- Numbers up to the ends of `sbyte`, with a skipped row and members that follow others. -/
def rows : List (Array (Option String)) :=
  [#[some "[Enum:sbyte]", some "Level"], #[some "Name", some "Value"], #[some "Ebb", some "-128"],
   #[some "; Slack", some "5"], #[some "Low"], #[some "High", some "+126"], #[some "Top"]]

/-- The view of these rows. -/
def view : View := ⟨⟨rows.toArray⟩, 0, 0, 7, 2⟩

/-- What these rows declare. -/
def level : EnumDecl := ⟨false, .sbyte,
  [⟨"Ebb", some (-128), -128, none, ⟨2, 0⟩⟩, ⟨"Low", none, -127, none, ⟨4, 0⟩⟩,
   ⟨"High", some 126, 126, none, ⟨5, 0⟩⟩, ⟨"Top", none, 127, none, ⟨6, 0⟩⟩]⟩

/-- The same with one more member, which would follow `127`. -/
def flooded : View := ⟨⟨(rows ++ [#[some "Flood"]]).toArray⟩, 0, 0, 8, 2⟩

/-- The numbers are those of the generated code; one more is refused where it would be
written. -/
theorem numbers_exact_tide :
    (∃ block, Block.read default .enum view = .ok block ∧ block.body = .enum level ∧
      CSharp.numberedScopes (CSharp.enumOf ⟨.pascal, {}⟩ block level).code
        = [("public enum Level : sbyte",
            [("Ebb", -128), ("Low", -127), ("High", 126), ("Top", 127)])]) ∧
    ∃ table, Table.ofView default flooded enumColumns = .ok table ∧
      table.NewNames (table.elementRows default) ∧
      (∃ fault, Block.read default .enum flooded = .error fault ∧ fault.AtNumber ⟨7, 1⟩) ∧
      ∃ row, table.FirstBad .sbyte none (table.elementRows default) row ∧
        table.place row "Value" = ⟨7, 1⟩ := by
  constructor
  · obtain ⟨block, hread, hbody, hlabel⟩ : ∃ block, Block.read default .enum view = .ok block ∧
        block.body = .enum level ∧ block.label = "Level" :=
      exists_ok_of_decide _ (by decide +kernel)
    obtain ⟨-, -, hcode⟩ :=
      ((Block.numbers_exact default view).1 block level hread hbody).1 ⟨.pascal, {}⟩
    refine ⟨block, hread, hbody, ?_⟩
    rw [hcode (by decide +kernel), hlabel]
    decide +kernel
  · have htable : Table.ofView default flooded enumColumns
        = .ok ⟨flooded, enumColumns, [("Name", 0), ("Value", 1)]⟩ := rfl
    have hnames : Table.NewNames ⟨flooded, enumColumns, [("Name", 0), ("Value", 1)]⟩
        (Table.elementRows default ⟨flooded, enumColumns, [("Name", 0), ("Value", 1)]⟩) :=
      ⟨by decide +kernel, by decide +kernel⟩
    have hrefused : ∃ fault, Block.read default .enum flooded = .error fault ∧
        fault.AtNumber ⟨7, 1⟩ := by
      obtain ⟨fault, hfault, hcode, hlabels⟩ : ∃ fault,
          Block.read default .enum flooded = .error fault ∧ fault.code? = some .e203 ∧
            fault.labels = [.primary ⟨7, 1⟩ "invalid enum value"] :=
        exists_error_of_decide _ (by decide +kernel)
      exact ⟨fault, hfault, hcode, hlabels⟩
    obtain ⟨-, hat, -⟩ :=
      (Block.numbers_exact default flooded).2 (some "Level") _ rfl htable hnames
    exact ⟨_, htable, hnames, hrefused, (hat ⟨7, 1⟩).mp hrefused⟩

end Tide
end TypedSheets

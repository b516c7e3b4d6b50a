import Mathlib.Data.List.DropRight
import TypedSheets.Proofs.Numerals
import TypedSheets.Type.Reader

/-!
# The grammar of type cells

A type cell is read in two passes: characters become tokens, and a type is taken from the
start of the tokens.  The grammar knows nothing of tokens.  It derives characters, with gaps
where they may stand, and has no look-ahead to tell a list from a type that is named `List`.

The passes meet in `Spells`, the characters that tokens are scanned from.  What is taken from
tokens takes a derived piece off the characters that spell them; and a derived piece, put
before characters that spell some tokens, spells more of them, which give its type back.  An
identifier has to end where its piece ends, so the second statement is about pieces together
with what follows them.

## Main definitions

* `WrittenType.TypeText`, `WrittenType.AtomText` — the grammar.
* `TypeToken.Spells` — characters that tokens are scanned from.

## Main results

* `TypeToken.scanFrom_eq_some_iff` — the first pass.
* `WrittenType.exists_typeText_of_take?`, `WrittenType.TypeText.exists_take?` — the second pass.
* `WrittenType.TypeText.text` — what is derived is also derived from its own text.
* `WrittenType.readsGrammar` — **type cells are read by their grammar, and printed back.**
-/

namespace TypedSheets

/-! ### The grammar -/

namespace WrittenType

/-- `[A-Za-z_]`. -/
def IsLetter (c : Char) : Prop := 'A' ≤ c ∧ c ≤ 'Z' ∨ 'a' ≤ c ∧ c ≤ 'z' ∨ c = '_'

/-- `[A-Za-z0-9_]`. -/
def IsLetterOrDigit (c : Char) : Prop := IsLetter c ∨ '0' ≤ c ∧ c ≤ '9'

/-- `[A-Za-z_][A-Za-z0-9_]*`. -/
inductive IdentText : List Char → Prop
  | mk {c : Char} {cs : List Char} (hc : IsLetter c) (hcs : ∀ d ∈ cs, IsLetterOrDigit d) :
      IdentText (c :: cs)

/-- A run of spaces, tabs and line ends. -/
def Gap (cs : List Char) : Prop := ∀ c ∈ cs, c = ' ' ∨ c = '\t' ∨ c = '\r' ∨ c = '\n'

mutual

/-- `type := atom '?'?`, with a gap before every token. -/
inductive TypeText : List Char → WrittenType → Prop
  | plain {cs : List Char} {type : WrittenType} (h : AtomText cs type) : TypeText cs type
  | nullable {cs gap : List Char} {type : WrittenType} (h : AtomText cs type) (hgap : Gap gap) :
      TypeText (cs ++ gap ++ ['?']) (.nullable type)

/-- `atom := 'List' '<' type '>' | ident`, with a gap before every token. -/
inductive AtomText : List Char → WrittenType → Prop
  | list {gap opening cs closing : List Char} {element : WrittenType} (hgap : Gap gap)
      (hopening : Gap opening) (h : TypeText cs element) (hclosing : Gap closing) :
      AtomText (gap ++ "List".toList ++ opening ++ ['<'] ++ cs ++ closing ++ ['>'])
        (.list element)
  /-- An identifier that is a keyword. -/
  | keyword {gap : List Char} (hgap : Gap gap) (s : Scalar) :
      AtomText (gap ++ s.keyword.toList) (.scalar s)
  /-- Any other identifier. -/
  | name {gap : List Char} {name : String} (hgap : Gap gap) (hname : IdentText name.toList)
      (hkeyword : ∀ s : Scalar, s.keyword ≠ name) : AtomText (gap ++ name.toList) (.named name)

end

end WrittenType

/-! ### Characters -/

/-- Whether a text is an identifier. -/
def isIdent (name : String) : Bool :=
  match name.toList with
  | [] => false
  | c :: cs => TypeToken.isIdentStart c && cs.all TypeToken.isIdentRest

namespace TypeToken

theorem isIdentRest_of_isIdentStart {c : Char} (h : isIdentStart c = true) :
    isIdentRest c = true := by
  simp only [isIdentStart, isIdentRest, Char.isAlphanum, Bool.or_eq_true] at h ⊢
  rcases h with h | h
  · exact Or.inl (Or.inl h)
  · exact Or.inr h

theorem isIdent_snoc {letters : List Char} {c : Char} (h : isIdent (String.ofList letters) = true)
    (hc : isIdentRest c = true) : isIdent (String.ofList (letters ++ [c])) = true := by
  cases letters with
  | nil => simp [isIdent] at h
  | cons first rest =>
    simp only [isIdent, String.toList_ofList, Bool.and_eq_true, List.cons_append, List.all_append,
      List.all_cons, List.all_nil, hc, Bool.and_true] at h ⊢
    exact h

end TypeToken

namespace WrittenType

theorem gap_nil : Gap [] := by
  intro c hc
  cases hc

theorem isSpace_of_gap {gap : List Char} (h : Gap gap) :
    ∀ c ∈ gap, TypeToken.isSpace c = true := by
  intro c hc
  simpa [TypeToken.isSpace, or_assoc] using h c hc

theorem gap_cons {c : Char} {gap : List Char} (hc : TypeToken.isSpace c = true) (h : Gap gap) :
    Gap (c :: gap) := by
  intro d hd
  rcases List.mem_cons.mp hd with rfl | hd
  · simpa [TypeToken.isSpace, or_assoc] using hc
  · exact h d hd

theorem isAlpha_iff {c : Char} : c.isAlpha = true ↔ 'A' ≤ c ∧ c ≤ 'Z' ∨ 'a' ≤ c ∧ c ≤ 'z' := by
  delta Char.isAlpha Char.isUpper Char.isLower
  simp only [Bool.or_eq_true, Bool.and_eq_true, decide_eq_true_eq]
  exact Iff.rfl

theorem isIdentStart_iff {c : Char} : TypeToken.isIdentStart c = true ↔ IsLetter c := by
  rw [TypeToken.isIdentStart, Bool.or_eq_true, isAlpha_iff, decide_eq_true_eq, IsLetter, or_assoc]

theorem isIdentRest_iff {c : Char} : TypeToken.isIdentRest c = true ↔ IsLetterOrDigit c := by
  have h : TypeToken.isIdentRest c = (TypeToken.isIdentStart c || c.isDigit) := by
    simp [TypeToken.isIdentRest, TypeToken.isIdentStart, Char.isAlphanum, Bool.or_right_comm]
  rw [h, Bool.or_eq_true, isIdentStart_iff]
  simp [IsLetterOrDigit, Char.isDigit, Char.le_def]

theorem isIdent_iff {name : String} : isIdent name = true ↔ IdentText name.toList := by
  rw [isIdent]
  cases name.toList with
  | nil => exact ⟨nofun, nofun⟩
  | cons c cs =>
    rw [Bool.and_eq_true, List.all_eq_true, isIdentStart_iff]
    simp only [isIdentRest_iff]
    exact ⟨fun h => .mk h.1 h.2, fun | .mk hc hcs => ⟨hc, hcs⟩⟩

end WrittenType

/-! ### Scanning -/

namespace TypeToken

open WrittenType (Gap gap_nil gap_cons isSpace_of_gap)

/-- Characters that do not go on with an identifier before them. -/
def Ends (cs : List Char) : Prop := ∀ c, cs.head? = some c → isIdentRest c = false

/-- Characters that tokens are scanned from. -/
inductive Spells : List Char → List TypeToken → Prop
  | done {gap : List Char} (hgap : Gap gap) : Spells gap []
  | mark {gap cs : List Char} {c : Char} {token : TypeToken} {tokens : List TypeToken}
      (hgap : Gap gap) (hc : mark? c = some token) (h : Spells cs tokens) :
      Spells (gap ++ c :: cs) (token :: tokens)
  | ident {gap cs : List Char} {name : String} {tokens : List TypeToken} (hgap : Gap gap)
      (hname : isIdent name = true) (hends : Ends cs) (h : Spells cs tokens) :
      Spells (gap ++ name.toList ++ cs) (ident name :: tokens)

theorem isIdentRest_of_isSpace {c : Char} (h : isSpace c = true) : isIdentRest c = false := by
  simp only [isSpace, Bool.or_eq_true, decide_eq_true_eq] at h
  rcases h with ((rfl | rfl) | rfl) | rfl <;> decide

theorem mark?_eq_some {c : Char} {token : TypeToken} (h : mark? c = some token) :
    c = '<' ∧ token = less ∨ c = '>' ∧ token = greater ∨ c = '?' ∧ token = question := by
  rw [mark?.eq_def] at h
  split at h <;> cases h <;> simp

theorem isIdentRest_of_mark? {c : Char} {token : TypeToken} (h : mark? c = some token) :
    isIdentRest c = false := by
  rcases mark?_eq_some h with ⟨rfl, -⟩ | ⟨rfl, -⟩ | ⟨rfl, -⟩ <;> decide

theorem isSpace_of_mark? {c : Char} {token : TypeToken} (h : mark? c = some token) :
    isSpace c = false := by
  rcases mark?_eq_some h with ⟨rfl, -⟩ | ⟨rfl, -⟩ | ⟨rfl, -⟩ <;> decide

theorem isIdentStart_eq_false {c : Char} (h : isIdentRest c = false) : isIdentStart c = false := by
  rw [← Bool.not_eq_true] at h ⊢
  exact fun hstart => h (isIdentRest_of_isIdentStart hstart)

theorem ends_nil : Ends [] := by
  intro c hc
  cases hc

theorem ends_cons {c : Char} {cs : List Char} (h : isIdentRest c = false) : Ends (c :: cs) := by
  intro d hd
  cases hd
  exact h

/-- A gap ends an identifier if what follows it does. -/
theorem ends_gap {gap cs : List Char} (hgap : Gap gap) (hcs : Ends cs) : Ends (gap ++ cs) := by
  cases gap with
  | nil => exact hcs
  | cons c gap => exact ends_cons (isIdentRest_of_isSpace (isSpace_of_gap hgap c (by simp)))

/-! #### From the tokens to the characters -/

theorem Spells.space {c : Char} {cs : List Char} {tokens : List TypeToken}
    (hc : isSpace c = true) (h : Spells cs tokens) : Spells (c :: cs) tokens := by
  cases h with
  | done hgap => exact .done (gap_cons hc hgap)
  | mark hgap hmark h => exact .mark (gap_cons hc hgap) hmark h
  | ident hgap hname hends h => exact .ident (gap_cons hc hgap) hname hends h

/-- The letters read so far, before characters that end them. -/
theorem Spells.flush {letters cs : List Char} {tokens : List TypeToken}
    (hletters : letters ≠ [] → isIdent (String.ofList letters.reverse) = true) (hends : Ends cs)
    (h : Spells cs tokens) : Spells (letters.reverse ++ cs) (flush letters ++ tokens) := by
  cases letters with
  | nil => exact h
  | cons c letters =>
    have hident := Spells.ident gap_nil (hletters (by simp)) hends h
    rwa [List.nil_append, String.toList_ofList] at hident

theorem isIdent_reverse_cons {letters : List Char} {c : Char}
    (hletters : letters ≠ [] → isIdent (String.ofList letters.reverse) = true)
    (hc : (isIdentStart c || (!letters.isEmpty && isIdentRest c)) = true) :
    isIdent (String.ofList (c :: letters).reverse) = true := by
  rw [List.reverse_cons]
  cases letters with
  | nil => simpa [isIdent] using hc
  | cons last letters =>
    refine isIdent_snoc (hletters (by simp)) ?_
    rw [Bool.or_eq_true] at hc
    rcases hc with hstart | hrest
    · exact isIdentRest_of_isIdentStart hstart
    · simpa using hrest

/-- Scanned tokens are spelled by the characters.  The induction is over the characters, the
letters read so far in front of them. -/
theorem spells_of_scanFrom : ∀ (cs : List Char) {letters : List Char} {tokens : List TypeToken},
    (letters ≠ [] → isIdent (String.ofList letters.reverse) = true) →
      scanFrom letters cs = some tokens → Spells (letters.reverse ++ cs) tokens := by
  intro cs
  induction cs with
  | nil =>
    intro letters tokens hletters h
    cases h
    have hflush := Spells.flush hletters ends_nil (.done gap_nil)
    rwa [List.append_nil (flush letters)] at hflush
  | cons c cs ih =>
    intro letters tokens hletters h
    rw [scanFrom] at h
    split at h
    · -- one more letter: it moves from the characters to the letters before them
      next hgoes =>
      have hrest := ih (fun _ => isIdent_reverse_cons hletters hgoes) h
      rwa [List.reverse_cons, List.append_assoc] at hrest
    · split at h
      · next hspace =>
        obtain ⟨rest, hrest, rfl⟩ := Option.map_eq_some_iff.mp h
        exact .flush hletters (ends_cons (isIdentRest_of_isSpace hspace))
          (.space hspace (ih nofun hrest))
      · split at h
        · next mark hmark =>
          obtain ⟨rest, hrest, rfl⟩ := Option.map_eq_some_iff.mp h
          exact .flush hletters (ends_cons (isIdentRest_of_mark? hmark))
            (.mark gap_nil hmark (ih nofun hrest))
        · cases h

/-! #### From the characters to the tokens -/

/-- What follows an identifier is scanned on its own. -/
theorem scanFrom_of_ends {cs : List Char} (h : Ends cs) (letters : List Char) :
    scanFrom letters cs = (scanFrom [] cs).map (flush letters ++ ·) := by
  cases cs with
  | nil => simp [scanFrom, flush]
  | cons c cs =>
    have hrest : isIdentRest c = false := h c rfl
    simp only [scanFrom, hrest, isIdentStart_eq_false hrest, Bool.and_false, Bool.or_false,
      Bool.false_eq_true, ite_false]
    split
    · rw [Option.map_map]
      rfl
    · split
      · rw [Option.map_map]
        rfl
      · rfl

theorem scanFrom_gap {gap : List Char} (hgap : Gap gap) (cs : List Char) :
    scanFrom [] (gap ++ cs) = scanFrom [] cs := by
  induction gap with
  | nil => rfl
  | cons c gap ih =>
    have hspace := isSpace_of_gap hgap c (by simp)
    have hstart := isIdentStart_eq_false (isIdentRest_of_isSpace hspace)
    rw [← ih fun d hd => hgap d (List.mem_cons_of_mem _ hd)]
    simp [scanFrom, hspace, hstart, flush]

theorem scanFrom_rest {rest : List Char} (hrest : ∀ c ∈ rest, isIdentRest c = true)
    (cs : List Char) : ∀ {letters : List Char}, letters ≠ [] →
      scanFrom letters (rest ++ cs) = scanFrom (rest.reverse ++ letters) cs := by
  induction rest with
  | nil => intro _ _; rfl
  | cons c rest ih =>
    intro letters hletters
    rw [List.forall_mem_cons] at hrest
    have hgoes : (isIdentStart c || (!letters.isEmpty && isIdentRest c)) = true := by
      simp [hletters, hrest.1]
    rw [List.cons_append, scanFrom, if_pos hgoes, ih hrest.2 (by simp), List.reverse_cons,
      List.append_assoc, List.singleton_append]

theorem scanFrom_ident {name : String} (hname : isIdent name = true) (cs : List Char) :
    scanFrom [] (name.toList ++ cs) = scanFrom name.toList.reverse cs := by
  rw [isIdent] at hname
  cases hchars : name.toList with
  | nil => simp [hchars] at hname
  | cons c rest =>
    rw [hchars] at hname
    simp only [Bool.and_eq_true, List.all_eq_true] at hname
    rw [List.cons_append, scanFrom, if_pos (by simp [hname.1]), scanFrom_rest hname.2 cs (by simp),
      List.reverse_cons]

theorem flush_reverse {name : String} (hname : isIdent name = true) :
    flush name.toList.reverse = [ident name] := by
  have hne : name.toList ≠ [] := by
    intro hnil
    simp [isIdent, hnil] at hname
  cases hletters : name.toList.reverse with
  | nil => exact absurd (List.reverse_eq_nil_iff.mp hletters) hne
  | cons c letters =>
    rw [flush.eq_2 _ (by simp), ← hletters, List.reverse_reverse, String.ofList_toList]

/-- **The tokens of characters are those they spell.** -/
theorem scanFrom_eq_some_iff {cs : List Char} {tokens : List TypeToken} :
    scanFrom [] cs = some tokens ↔ Spells cs tokens := by
  constructor
  · exact spells_of_scanFrom cs nofun
  · intro h
    induction h with
    | done hgap =>
      have hscan := scanFrom_gap hgap []
      rwa [List.append_nil] at hscan
    | @mark gap cs c token tokens hgap hc h ih =>
      -- a mark ends no name, as none is open
      have hrest := isIdentRest_of_mark? hc
      rw [scanFrom_gap hgap, scanFrom]
      simp [hrest, isIdentStart_eq_false hrest, isSpace_of_mark? hc, hc, ih, flush]
    | ident hgap hname hends h ih =>
      rw [List.append_assoc, scanFrom_gap hgap, scanFrom_ident hname, scanFrom_of_ends hends, ih,
        flush_reverse hname]
      rfl

/-! #### Taking spellings apart -/

theorem Spells.exists_of_mark {cs : List Char} {c : Char} {token : TypeToken}
    {tokens : List TypeToken} (h : Spells cs (token :: tokens)) (hc : mark? c = some token) :
    ∃ gap rest, cs = gap ++ c :: rest ∧ Gap gap ∧ Spells rest tokens := by
  cases h with
  | @mark gap rest d _ _ hgap hd h =>
    have hcd : d = c := by
      rcases mark?_eq_some hc with ⟨rfl, rfl⟩ | ⟨rfl, rfl⟩ | ⟨rfl, rfl⟩ <;>
        simpa using mark?_eq_some hd
    exact ⟨gap, rest, by rw [hcd], hgap, h⟩
  | ident => rcases mark?_eq_some hc with ⟨-, h⟩ | ⟨-, h⟩ | ⟨-, h⟩ <;> cases h

theorem Spells.exists_of_ident {cs : List Char} {name : String} {tokens : List TypeToken}
    (h : Spells cs (TypeToken.ident name :: tokens)) :
    ∃ gap rest, cs = gap ++ name.toList ++ rest ∧ Gap gap ∧ isIdent name = true ∧
      Spells rest tokens := by
  cases h with
  | mark _ hc _ => rcases mark?_eq_some hc with ⟨-, h⟩ | ⟨-, h⟩ | ⟨-, h⟩ <;> cases h
  | ident hgap hname _ h => exact ⟨_, _, rfl, hgap, hname, h⟩

end TypeToken

/-! ### Taking types from tokens -/

theorem Scalar.ofKeyword?_eq_some_iff {text : String} {s : Scalar} :
    ofKeyword? text = some s ↔ s.keyword = text := by
  constructor
  · intro h
    simpa using List.find?_some h
  · rintro rfl
    cases s <;> rfl

theorem Scalar.ofKeyword?_eq_none_iff {text : String} :
    ofKeyword? text = none ↔ ∀ s : Scalar, s.keyword ≠ text := by
  simp [← Scalar.ofKeyword?_eq_some_iff, Option.eq_none_iff_forall_ne_some]

namespace WrittenType

open TypeToken

theorem atomText_ofIdent {gap : List Char} {name : String} (hgap : Gap gap)
    (hname : isIdent name = true) : AtomText (gap ++ name.toList) (ofIdent name) := by
  rw [ofIdent]
  cases hkeyword : Scalar.ofKeyword? name with
  | some s =>
    rw [← Scalar.ofKeyword?_eq_some_iff.mp hkeyword]
    exact .keyword hgap s
  | none => exact .name hgap (isIdent_iff.mp hname) (Scalar.ofKeyword?_eq_none_iff.mp hkeyword)

/-- A question mark after an atom belongs to its type. -/
theorem exists_typeText_takeQuestion {cs tail : List Char} {atom type : WrittenType}
    {tokens rest : List TypeToken} (hatom : AtomText cs atom) (htail : Spells tail tokens)
    (h : takeQuestion atom tokens = (type, rest)) :
    ∃ body rest', cs ++ tail = body ++ rest' ∧ TypeText body type ∧ Spells rest' rest := by
  rw [takeQuestion.eq_def] at h
  split at h
  · obtain ⟨gap, after, rfl, hgap, hafter⟩ :=
      htail.exists_of_mark (rfl : mark? '?' = some question)
    cases h
    exact ⟨cs ++ gap ++ ['?'], after, by simp, .nullable hatom hgap, hafter⟩
  · cases h
    exact ⟨cs, tail, rfl, .plain hatom, htail⟩

/-- **A type that is taken from tokens is derived from the start of the characters that spell
them.** -/
theorem exists_typeText_of_take? {tokens rest : List TypeToken} {type : WrittenType}
    {cs : List Char} (hcs : Spells cs tokens) (h : take? tokens = some (type, rest)) :
    ∃ body tail, cs = body ++ tail ∧ TypeText body type ∧ Spells tail rest := by
  fun_induction take? tokens generalizing type rest cs with
  | case1 tokens element after helement ih =>
    obtain ⟨gap, _, rfl, hgap, -, hcs⟩ := hcs.exists_of_ident
    obtain ⟨opening, _, rfl, hopening, hcs⟩ := hcs.exists_of_mark (rfl : mark? '<' = some less)
    obtain ⟨body, _, rfl, hbody, hcs⟩ := ih hcs helement
    obtain ⟨closing, tail, rfl, hclosing, htail⟩ :=
      hcs.exists_of_mark (rfl : mark? '>' = some greater)
    have hlist := exists_typeText_takeQuestion (.list hgap hopening hbody hclosing) htail
      (Option.some.inj h)
    simpa using hlist
  | case2 => cases h
  -- an identifier before `<` that is not `List`, or one that no `<` follows, is an atom
  | case3 name tokens _ =>
    obtain ⟨gap, tail, rfl, hgap, hname, htail⟩ := hcs.exists_of_ident
    exact exists_typeText_takeQuestion (atomText_ofIdent hgap hname) htail (Option.some.inj h)
  | case4 name tokens _ =>
    obtain ⟨gap, tail, rfl, hgap, hname, htail⟩ := hcs.exists_of_ident
    exact exists_typeText_takeQuestion (atomText_ofIdent hgap hname) htail (Option.some.inj h)
  | case5 => cases h

/-! ### Tokens of derived types -/

theorem isIdent_keyword (s : Scalar) : isIdent s.keyword = true := by
  cases s <;> decide

theorem ofIdent_keyword (s : Scalar) : ofIdent s.keyword = .scalar s := by
  rw [ofIdent, Scalar.ofKeyword?_eq_some_iff.mpr rfl]

theorem ofIdent_name {name : String} (h : ∀ s : Scalar, s.keyword ≠ name) :
    ofIdent name = .named name := by
  rw [ofIdent, Scalar.ofKeyword?_eq_none_iff.mpr h]

/-- An identifier that no `<` follows is an atom. -/
theorem take?_ident (name : String) {tokens : List TypeToken} (h : tokens.head? ≠ some less) :
    take? (ident name :: tokens) = some (takeQuestion (ofIdent name) tokens) := by
  cases tokens with
  | nil => rfl
  | cons token tokens =>
    cases token with
    | less => exact absurd rfl h
    | _ => rfl

theorem takeQuestion_of_head?_ne {type : WrittenType} {tokens : List TypeToken}
    (h : tokens.head? ≠ some question) : takeQuestion type tokens = (type, tokens) := by
  rw [takeQuestion.eq_def]
  split
  · exact absurd rfl h
  · rfl

theorem take?_list {tokens rest : List TypeToken} {element : WrittenType}
    (h : take? tokens = some (element, greater :: rest)) :
    take? (ident "List" :: less :: tokens) = some (takeQuestion (.list element) rest) := by
  rw [take?, if_pos rfl, h]

mutual

/-- **Derived characters give their type back**, before any characters that end them and do not
go on with the type. -/
theorem TypeText.exists_take? {cs : List Char} {type : WrittenType} :
    TypeText cs type → ∀ {tail : List Char} {tokens : List TypeToken}, Spells tail tokens →
      Ends tail → tokens.head? ≠ some less → tokens.head? ≠ some question →
      ∃ all, Spells (cs ++ tail) all ∧ take? all = some (type, tokens)
  | .plain hatom, tail, tokens, htail, hends, hless, hquestion => by
    obtain ⟨all, hall, htake⟩ := hatom.exists_take? htail hends hless
    exact ⟨all, hall, by rw [htake, takeQuestion_of_head?_ne hquestion]⟩
  | @TypeText.nullable _ gap _ hatom hgap, tail, tokens, htail, _, _, _ => by
    have hmark : Spells (gap ++ '?' :: tail) (question :: tokens) := .mark hgap rfl htail
    obtain ⟨all, hall, htake⟩ := hatom.exists_take? hmark (ends_gap hgap (ends_cons rfl)) (by simp)
    exact ⟨all, by simpa using hall, htake⟩

/-- The same for atoms, which a question mark may follow. -/
theorem AtomText.exists_take? {cs : List Char} {type : WrittenType} :
    AtomText cs type → ∀ {tail : List Char} {tokens : List TypeToken}, Spells tail tokens →
      Ends tail → tokens.head? ≠ some less →
      ∃ all, Spells (cs ++ tail) all ∧ take? all = some (takeQuestion type tokens)
  | @AtomText.list gap opening cs closing _ hgap hopening hbody hclosing, tail, tokens, htail,
      _, _ => by
    -- from the inside out: the closing mark, the element, the opening mark, the keyword
    have hend : Spells (closing ++ '>' :: tail) (greater :: tokens) := .mark hclosing rfl htail
    obtain ⟨inner, hinner, htake⟩ :=
      hbody.exists_take? hend (ends_gap hclosing (ends_cons rfl)) (by simp) (by simp)
    have hstart : Spells (opening ++ '<' :: (cs ++ (closing ++ '>' :: tail))) (less :: inner) :=
      .mark hopening rfl hinner
    have hlist : Spells (gap ++ "List".toList ++ _) (ident "List" :: less :: inner) :=
      .ident hgap (by decide) (ends_gap hopening (ends_cons rfl)) hstart
    exact ⟨_, by simpa using hlist, take?_list htake⟩
  | .keyword hgap s, _, _, htail, hends, hless => by
    refine ⟨_, .ident hgap (isIdent_keyword s) hends htail, ?_⟩
    rw [take?_ident _ hless, ofIdent_keyword]
  | .name hgap hname hkeyword, _, _, htail, hends, hless => by
    refine ⟨_, .ident hgap (isIdent_iff.mpr hname) hends htail, ?_⟩
    rw [take?_ident _ hless, ofIdent_name hkeyword]

end

/-! ### Texts -/

mutual

/-- **What is derived from some characters is also derived from its own text.** -/
theorem TypeText.text {cs : List Char} {type : WrittenType} :
    TypeText cs type → TypeText type.text.toList type
  | .plain hatom => .plain hatom.text
  | .nullable hatom _ => by
    simpa [WrittenType.text] using TypeText.nullable hatom.text gap_nil

theorem AtomText.text {cs : List Char} {type : WrittenType} :
    AtomText cs type → AtomText type.text.toList type
  | .list _ _ hbody _ => by
    simpa [WrittenType.text] using AtomText.list gap_nil gap_nil hbody.text gap_nil
  | .keyword _ s => by
    simpa [WrittenType.text] using AtomText.keyword gap_nil s
  | .name _ hname hkeyword => by
    simpa [WrittenType.text] using AtomText.name gap_nil hname hkeyword

end

theorem isBlankChar_of_isIdentRest {c : Char} (h : isIdentRest c = true) :
    Text.isBlankChar c = false := by
  have hrange : 48 ≤ c.toNat ∧ c.toNat ≤ 122 := by
    rcases isIdentRest_iff.mp h with (h | h | rfl) | h
    · exact ⟨le_trans (by decide) h.1, le_trans h.2 (by decide)⟩
    · exact ⟨le_trans (by decide) h.1, le_trans h.2 (by decide)⟩
    · decide
    · exact ⟨le_trans (by decide) h.1, le_trans h.2 (by decide)⟩
  exact Text.isBlankChar_of_visible (by omega) (by omega)

theorem IdentText.exists_getLast {cs : List Char} (h : IdentText cs) :
    ∃ last, cs.getLast? = some last ∧ Text.isBlankChar last = false := by
  cases h with
  | @mk c cs hc hcs =>
    refine ⟨(c :: cs).getLast (by simp), List.getLast?_eq_getLast_of_ne_nil _, ?_⟩
    refine isBlankChar_of_isIdentRest (isIdentRest_iff.mpr ?_)
    rcases List.mem_cons.mp (List.getLast_mem (by simp : c :: cs ≠ [])) with hlast | hlast
    · rw [hlast]
      exact Or.inl hc
    · exact hcs _ hlast

/-- A derived type ends in a visible character. -/
theorem AtomText.exists_getLast {cs : List Char} {type : WrittenType} (h : AtomText cs type) :
    ∃ last, cs.getLast? = some last ∧ Text.isBlankChar last = false := by
  cases h with
  | list => exact ⟨'>', List.getLast?_concat, by decide⟩
  | keyword _ s =>
    obtain ⟨last, hlast, hblank⟩ := (isIdent_iff.mp (isIdent_keyword s)).exists_getLast
    exact ⟨last, by simp [List.getLast?_append, hlast], hblank⟩
  | name _ hname _ =>
    obtain ⟨last, hlast, hblank⟩ := hname.exists_getLast
    exact ⟨last, by simp [List.getLast?_append, hlast], hblank⟩

theorem TypeText.exists_getLast {cs : List Char} {type : WrittenType} (h : TypeText cs type) :
    ∃ last, cs.getLast? = some last ∧ Text.isBlankChar last = false := by
  cases h with
  | plain hatom => exact hatom.exists_getLast
  | nullable => exact ⟨'?', List.getLast?_concat, by decide⟩

theorem dropBlanksEnd_append {cs tail : List Char} {last : Char}
    (hlast : cs.getLast? = some last) (hblank : Text.isBlankChar last = false)
    (htail : ∀ c ∈ tail, Text.isBlankChar c = true) : Text.dropBlanksEnd (cs ++ tail) = cs := by
  obtain ⟨init, rfl⟩ := List.getLast?_eq_some_iff.mp hlast
  rw [Text.dropBlanksEnd, List.reverse_append,
    List.dropWhile_append_of_pos (by simpa using htail), List.reverse_append]
  simp [hblank]

theorem read?_eq_some_iff {text : String} {type : WrittenType} :
    read? text = some type ↔
      ∃ tokens, Spells (Text.dropBlanksEnd text.toList) tokens ∧
        take? tokens = some (type, []) := by
  simp only [read?, scan?, ← scanFrom_eq_some_iff]
  constructor
  · intro h
    split at h
    · next htake =>
      cases h
      exact Option.bind_eq_some_iff.mp htake
    · cases h
  · rintro ⟨tokens, hscan, htake⟩
    rw [hscan, Option.bind_some, htake]

/-- A text is read to the type that the grammar derives it with, up to blanks at its end. -/
theorem read?_eq_some_iff_typeText {text : String} {type : WrittenType} :
    read? text = some type ↔
      ∃ body tail, text.toList = body ++ tail ∧ TypeText body type ∧
        ∀ c ∈ tail, Text.isBlankChar c = true := by
  rw [read?_eq_some_iff]
  constructor
  · rintro ⟨tokens, htokens, htake⟩
    obtain ⟨body, gap, hbody, htype, hgap⟩ := exists_typeText_of_take? htokens htake
    cases hgap with
    | done hgap =>
      refine ⟨body, gap ++ text.toList.rtakeWhile Text.isBlankChar, ?_, htype, ?_⟩
      · rw [← List.append_assoc, ← hbody]
        exact List.rdropWhile_append_rtakeWhile.symm
      · intro c hc
        rcases List.mem_append.mp hc with hc | hc
        · rcases hgap c hc with rfl | rfl | rfl | rfl <;> decide
        · exact List.mem_rtakeWhile_imp hc
  · rintro ⟨body, tail, htext, hbody, htail⟩
    -- a type does not end in a blank, so trimming removes the tail and no more
    obtain ⟨last, hlast, hblank⟩ := hbody.exists_getLast
    obtain ⟨tokens, htokens, htake⟩ :=
      hbody.exists_take? (.done gap_nil) ends_nil (by simp) (by simp)
    rw [List.append_nil] at htokens
    exact ⟨tokens, by rwa [htext, dropBlanksEnd_append hlast hblank htail], htake⟩

/-- **Type cells are read by their grammar, and printed back.**  A text is read to a type exactly
if the grammar derives it with that type, up to blanks at its end; and what is read from some
text is also read from the text that the type is printed to. -/
theorem readsGrammar :
    (∀ (text : String) (type : WrittenType), read? text = some type ↔
      ∃ body tail, text.toList = body ++ tail ∧ TypeText body type ∧
        ∀ c ∈ tail, Text.isBlankChar c = true) ∧
    ∀ (text : String) (type : WrittenType), read? text = some type →
      read? type.text = some type := by
  refine ⟨fun text type => read?_eq_some_iff_typeText, ?_⟩
  intro text type h
  obtain ⟨body, tail, -, hbody, -⟩ := read?_eq_some_iff_typeText.mp h
  exact read?_eq_some_iff_typeText.mpr ⟨type.text.toList, [], by simp, hbody.text, nofun⟩

/-- A type named like the list constructor, in a list, in a text with gaps, ended by a blank that
could not stand between tokens; and the text that it is printed to. -/
theorem readsGrammar_list :
    read? "\tList <List ?\r\n>\u00A0" = some (.list (.nullable (.named "List"))) ∧
      read? "List<List?>" = some (.list (.nullable (.named "List"))) := by
  have h : read? "\tList <List ?\r\n>\u00A0" = some (.list (.nullable (.named "List"))) := by
    decide +kernel
  exact ⟨h, readsGrammar.2 _ _ h⟩

end WrittenType
end TypedSheets

import Mathlib.Data.List.Induction
import Mathlib.Data.Nat.Digits.Defs
import TypedSheets.Text.Blank
import TypedSheets.Text.Integer
import TypedSheets.Value.Basic

/-!
# Numerals

Numbers are read digit by digit, the first digit counting most.  Reading may be bounded at
every step, so that no product and no sum leaves the range of an index, or at the end: the two
agree, since what is read never shrinks.  Decimal digits are what numbers are written in, up to
the zeros that lead them.

## Main definitions

* `Text.fitting?` — a number in the range of an index.
* `Text.readDigits?` — digits in a base, with every step kept in range.
* `Text.Spells` — characters that spell an integer.

## Main results

* `Text.readDigits?_eq` — **bounded steps are a bound at the end.**
* `Text.toDigits_decimalValue` — **digits are written again without the zeros that lead them.**
* `Text.integer?_toString` — integers are read as they are written.
* `Text.integer?_eq_some_iff` — **integers are read from what spells them.**
-/

namespace TypedSheets
namespace Text

/-! ### Digits in a base -/

/-- A number, if it may be an index. -/
def fitting? (n : Nat) : Option Nat := if n ≤ maxIndex then some n else none

/-- The number that one more digit makes, unless the product or the sum is too large. -/
def digitStep? (base n digit : Nat) : Option Nat := do
  let scaled ← fitting? (base * n)
  fitting? (scaled + digit)

/-- The number of some digits, the first one counting most, unless a step is too large. -/
def readDigits? (base : Nat) (digits : List Nat) : Option Nat :=
  digits.foldlM (digitStep? base) 0

/-- Reading digits by Horner's rule. -/
theorem foldl_eq_ofDigits {α : Type} (base : Nat) (value : α → Nat) (cs : List α) :
    cs.foldl (fun n c => base * n + value c) 0 = Nat.ofDigits base (cs.map value).reverse := by
  rw [Nat.ofDigits_eq_foldr, List.foldr_reverse, List.foldl_map]
  simp [Nat.add_comm]

/-- The sum of a step is no smaller than its product, so it alone decides. -/
theorem digitStep?_eq (base n digit : Nat) :
    digitStep? base n digit = fitting? (base * n + digit) := by
  rw [digitStep?]
  by_cases hscaled : base * n ≤ maxIndex
  · rw [fitting?, if_pos hscaled]
    rfl
  · rw [fitting?, fitting?, if_neg hscaled, if_neg (by omega)]
    rfl

/-- A step from a number that is too large is too large as well. -/
theorem fitting?_bind_digitStep? {base : Nat} (hbase : 0 < base) (n digit : Nat) :
    ((fitting? n).bind fun n => digitStep? base n digit) = fitting? (base * n + digit) := by
  by_cases hn : n ≤ maxIndex
  · rw [fitting?, if_pos hn, Option.bind_some, digitStep?_eq]
  · have hgrows : n ≤ base * n := Nat.le_mul_of_pos_left n hbase
    rw [fitting?, fitting?, if_neg hn, if_neg (by omega), Option.bind_none]

/-- **Bounded steps are a bound at the end**: no step leaves the range unless the number
does. -/
theorem readDigits?_eq {base : Nat} (hbase : 0 < base) (digits : List Nat) :
    readDigits? base digits = fitting? (Nat.ofDigits base digits.reverse) := by
  rw [readDigits?]
  -- from the end, since every step works on what the digits before it make
  induction digits using List.reverseRecOn with
  | nil => rfl
  | append_singleton digits digit ih =>
    rw [List.foldlM_append, ih, List.reverse_append, List.reverse_singleton, List.singleton_append,
      Nat.ofDigits_cons, Nat.add_comm, ← fitting?_bind_digitStep? hbase]
    simp

/-! ### Decimal digits -/

theorem digitValue_lt {c : Char} (h : c.isDigit = true) : digitValue c < 10 := by
  have hrange := Char.isDigit_iff_toNat.mp h
  rw [digitValue]
  simp only [Char.reduceToNat] at hrange ⊢
  omega

theorem digitChar_digitValue {c : Char} (h : c.isDigit = true) :
    Nat.digitChar (digitValue c) = c := by
  have hrange := Char.isDigit_iff_toNat.mp h
  apply Char.toNat_inj.mp
  rw [Nat.toNat_digitChar_of_lt_ten (digitValue_lt h), digitValue]
  simp only [Char.reduceToNat] at hrange ⊢
  omega

/-- Digits read after a number that is not zero are written after it. -/
theorem toDigits_foldl {digits : List Char} (h : ∀ c ∈ digits, c.isDigit = true) {n : Nat}
    (hn : 0 < n) : Nat.toDigits 10 (digits.foldl (fun n c => 10 * n + digitValue c) n)
      = Nat.toDigits 10 n ++ digits := by
  induction digits generalizing n with
  | nil => simp
  | cons c digits ih =>
    obtain ⟨hc, hdigits⟩ := List.forall_mem_cons.mp h
    have hstep := Nat.toDigits_append_toDigits (b := 10) (by decide) hn (digitValue_lt hc)
    rw [Nat.toDigits_of_lt_base (digitValue_lt hc), digitChar_digitValue hc] at hstep
    rw [List.foldl_cons, ih hdigits (by omega), ← hstep, List.append_assoc, List.singleton_append]

/-- **Digits are written again without the zeros that lead them.** -/
theorem toDigits_decimalValue {digits : List Char} (h : ∀ c ∈ digits, c.isDigit = true)
    (hpos : 0 < decimalValue digits) :
    Nat.toDigits 10 (decimalValue digits) = digits.dropWhile (· == '0') := by
  induction digits with
  | nil => cases hpos
  | cons c digits ih =>
    obtain ⟨hc, hdigits⟩ := List.forall_mem_cons.mp h
    by_cases hzero : c = '0'
    · subst hzero
      exact ih hdigits hpos
    · have hne : 0 < digitValue c := by
        refine Nat.pos_of_ne_zero fun h0 => hzero ?_
        rw [← digitChar_digitValue hc, h0]
        rfl
      rw [List.dropWhile_cons_of_neg (by simpa using hzero), decimalValue, List.foldl_cons,
        Nat.mul_zero, Nat.zero_add, toDigits_foldl hdigits hne,
        Nat.toDigits_of_lt_base (digitValue_lt hc), digitChar_digitValue hc, List.singleton_append]

/-! ### Written integers -/

theorem trimChars_eq_self {cs : List Char} (h : ∀ c ∈ cs, isBlankChar c = false) :
    trimChars cs = cs := by
  have hdrop : ∀ {l : List Char}, (∀ c ∈ l, isBlankChar c = false) →
      l.dropWhile isBlankChar = l := by
    intro l hl
    cases l with
    | nil => rfl
    | cons c l => exact List.dropWhile_cons_of_neg (by simp [hl c List.mem_cons_self])
  rw [trimChars, dropBlanks, hdrop h, dropBlanksEnd, hdrop (by simpa using h), List.reverse_reverse]

/-- The visible characters of ASCII are no blanks. -/
theorem isBlankChar_of_visible {c : Char} (hlow : 32 < c.toNat) (hhigh : c.toNat < 127) :
    isBlankChar c = false := by
  simp only [isBlankChar, blankRuns, List.any_cons, List.any_nil, Bool.or_false,
    Bool.or_eq_false_iff, Bool.and_eq_false_iff, decide_eq_false_iff_not]
  omega

theorem isBlankChar_of_isDigit {c : Char} (h : c.isDigit = true) : isBlankChar c = false := by
  have hrange := Char.isDigit_iff_toNat.mp h
  simp only [Char.reduceToNat] at hrange
  exact isBlankChar_of_visible (by omega) (by omega)

theorem isDigit_toDigits {n : Nat} {c : Char} (h : c ∈ Nat.toDigits 10 n) : c.isDigit = true :=
  Nat.isDigit_of_mem_toDigits (by decide) (by decide) h

theorem decimalValue_toDigits (n : Nat) : decimalValue (Nat.toDigits 10 n) = n :=
  Nat.ofDigitChars_toDigits (by decide) (by decide)

theorem natural?_toDigits (n : Nat) : natural? (Nat.toDigits 10 n) = some n := by
  have hdigits : (Nat.toDigits 10 n).all Char.isDigit = true :=
    List.all_eq_true.mpr fun _ => isDigit_toDigits
  rw [natural?, hdigits, decimalValue_toDigits]
  simp [Nat.toDigits_ne_nil]

theorem integer?_of_natural? {cs : List Char} {n : Nat} (h : natural? cs = some n) :
    integer? cs = some (n : Int) := by
  have hdigits : cs.all Char.isDigit = true := by
    rw [natural?] at h
    split at h
    · next hcond => exact (Bool.and_eq_true_iff.mp hcond).2
    · cases h
  rw [integer?.eq_def]
  split
  -- no sign is a digit
  · exact absurd hdigits (by simp)
  · exact absurd hdigits (by simp)
  · rw [h]
    rfl

/-- The text of an integer: digits, after a sign where it is negative. -/
theorem toString_cases (n : Int) : ∃ k : Nat,
    (n = k ∧ (toString n).toList = Nat.toDigits 10 k) ∨
      (n = -k ∧ (toString n).toList = '-' :: Nat.toDigits 10 k) := by
  rw [Int.toString_eq_repr, Int.repr_eq_if]
  split
  · next hpos => exact ⟨n.toNat, Or.inl ⟨by omega, Nat.toList_repr⟩⟩
  · next hneg =>
    refine ⟨(-n).toNat, Or.inr ⟨by omega, ?_⟩⟩
    rw [String.toList_append, Nat.toList_repr]
    rfl

/-- **An integer is read as it is written.** -/
theorem integer?_toString (n : Int) : integer? (toString n).toList = some n := by
  obtain ⟨k, ⟨hn, htext⟩ | ⟨hn, htext⟩⟩ := toString_cases n
  · rw [htext, integer?_of_natural? (natural?_toDigits k), hn]
  · rw [htext, integer?, natural?_toDigits, Option.map_some, hn, Int.ofNat_eq_natCast]

theorem wideInteger?_toString {n : Int} (hmin : Value.minInt ≤ n) (hmax : n ≤ Value.maxUInt) :
    wideInteger? (toString n).toList = some n := by
  have hrange : -maxWide - 1 ≤ n ∧ n ≤ maxWide := by
    simp only [Value.minInt, Value.maxUInt, maxWide] at hmin hmax ⊢
    omega
  rw [wideInteger?, integer?_toString, Option.filter_some]
  simp [hrange]

theorem trim_toString (n : Int) : trim (toString n) = toString n := by
  have hblank : ∀ c ∈ (toString n).toList, isBlankChar c = false := by
    obtain ⟨k, ⟨-, htext⟩ | ⟨-, htext⟩⟩ := toString_cases n
    · rw [htext]
      exact fun c hc => isBlankChar_of_isDigit (isDigit_toDigits hc)
    · rw [htext]
      exact List.forall_mem_cons.mpr
        ⟨rfl, fun c hc => isBlankChar_of_isDigit (isDigit_toDigits hc)⟩
  rw [trim, trimChars_eq_self hblank, String.ofList_toList]

/-! ### Spelled integers -/

/-- That characters spell an integer: one or more digits, behind at most one sign. -/
inductive Spells : List Char → Int → Prop
  | plain {digits : List Char} (hne : digits ≠ []) (hdigits : ∀ c ∈ digits, c.isDigit = true) :
      Spells digits (decimalValue digits)
  | plus {digits : List Char} (hne : digits ≠ []) (hdigits : ∀ c ∈ digits, c.isDigit = true) :
      Spells ('+' :: digits) (decimalValue digits)
  | minus {digits : List Char} (hne : digits ≠ []) (hdigits : ∀ c ∈ digits, c.isDigit = true) :
      Spells ('-' :: digits) (-decimalValue digits)

theorem natural?_eq_some_iff {cs : List Char} {n : Nat} :
    natural? cs = some n ↔ cs ≠ [] ∧ (∀ c ∈ cs, c.isDigit = true) ∧ decimalValue cs = n := by
  rw [natural?]
  split
  · next hcond =>
    obtain ⟨hne, hdigits⟩ : cs ≠ [] ∧ ∀ c ∈ cs, c.isDigit = true := by simpa using hcond
    rw [Option.some_inj]
    exact ⟨fun heq => ⟨hne, hdigits, heq⟩, fun h => h.2.2⟩
  · next hcond =>
    rw [iff_false_left (by simp)]
    rintro ⟨hne, hdigits, -⟩
    exact hcond (by simp [hne, List.all_eq_true.mpr hdigits])

/-- **Integers are read from what spells them**, and from nothing else. -/
theorem integer?_eq_some_iff {cs : List Char} {n : Int} : integer? cs = some n ↔ Spells cs n := by
  constructor
  · intro h
    rw [integer?.eq_def] at h
    split at h
    all_goals
      obtain ⟨k, hk, rfl⟩ := Option.map_eq_some_iff.mp h
      obtain ⟨hne, hdigits, rfl⟩ := natural?_eq_some_iff.mp hk
    · exact .plus hne hdigits
    · exact .minus hne hdigits
    · exact .plain hne hdigits
  · intro h
    cases h with
    | plain hne hdigits => exact integer?_of_natural? (natural?_eq_some_iff.mpr ⟨hne, hdigits, rfl⟩)
    | plus hne hdigits => rw [integer?, natural?_eq_some_iff.mpr ⟨hne, hdigits, rfl⟩]; rfl
    | minus hne hdigits => rw [integer?, natural?_eq_some_iff.mpr ⟨hne, hdigits, rfl⟩]; rfl

theorem integer?_eq_none_iff {cs : List Char} : integer? cs = none ↔ ∀ n, ¬ Spells cs n := by
  simp only [← integer?_eq_some_iff, Option.eq_none_iff_forall_ne_some, ne_eq]

end Text
end TypedSheets

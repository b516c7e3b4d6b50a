import TypedSheets.Value.Key

/-!
# Doubles as words

A double is stored in a word of sixty-four bits: its sign, eleven bits for the exponent and
fifty-two for the significand.  Every word is read as a double here, and every double has a word.
The two undo each other except that all undefined words are one number, whose word is the quiet
one without a sign.

Keys do not compare words but what is left of them when both zeros have the word zero and all
undefined numbers have one word.

## Main definitions

* `Double.ofBits`, `Double.bits` — the double of a word, and the word of a double.
* `Double.IsStored` — that a number is the double of a word.
* `Double.keyBits`, `keyWord` — the word that stands for a number in keys, and for a word.

## Main results

* `Double.bits_ofBits` — a word that is defined is the word of its double.
* `Double.keyBits_ofBits` — numbers and their words have the same word in keys.
* `Double.unsignedZero_eq_iff` — **stored numbers are the same in keys if their words in keys are
  equal.**
-/

namespace TypedSheets

/-- The word whose only bit is that of the sign. -/
def signWord : Nat := 9223372036854775808

/-- The word of the infinity without a sign. -/
def infinityWord : Nat := 9218868437227405312

/-- The word of the undefined number. -/
def nanWord : Nat := 9221120237041090560

/-- The word that stands for a word in keys: one for both zeros and one for all undefined
numbers. -/
def keyWord (word : UInt64) : Nat :=
  if word.toNat % signWord = 0 then 0
  else if infinityWord < word.toNat % signWord then nanWord
  else word.toNat

namespace Double

/-- The double of a word. -/
def ofBits (word : Nat) : Double :=
  let negative := decide (signWord ≤ word)
  let field := word / fullPrecision % 2048
  let fraction := word % fullPrecision
  if field = 2047 then if fraction = 0 then .infinite negative else .nan
  else if field = 0 then .finite negative fraction minExponent
  else .finite negative (fullPrecision + fraction) ((field : Int) - 1075)

/-- The word of a number without its sign. -/
def magnitudeBits : Double → Nat
  | .finite _ significand exponent =>
    if significand < fullPrecision then significand
    else (exponent + 1075).toNat * fullPrecision + (significand - fullPrecision)
  | .infinite _ => infinityWord
  | .nan => nanWord

/-- The word of a double. -/
def bits (x : Double) : Nat := (if x.isNegative then signWord else 0) + x.magnitudeBits

/-- The word that stands for a number in keys. -/
def keyBits (x : Double) : Nat := if x.isZero then 0 else x.bits

/-- That a number is the double of a word. -/
def IsStored (x : Double) : Prop := ∃ word : UInt64, x = ofBits word.toNat

/-- The size of a word, which is the word without the bit of the sign, by its two fields. -/
theorem size_eq (word : Nat) : word % signWord
    = word / fullPrecision % 2048 * fullPrecision + word % fullPrecision := by
  unfold signWord fullPrecision
  omega

/-- A word is read by its size. -/
theorem ofBits_cases (word : Nat) :
    (word % signWord < fullPrecision ∧
      ofBits word = .finite (decide (signWord ≤ word)) (word % signWord) minExponent) ∨
    (word % signWord < infinityWord ∧ ∃ field fraction, 0 < field ∧
      word % signWord = field * fullPrecision + fraction ∧ ofBits word
        = .finite (decide (signWord ≤ word)) (fullPrecision + fraction) ((field : Int) - 1075)) ∨
    (word % signWord = infinityWord ∧ ofBits word = .infinite (decide (signWord ≤ word))) ∨
    (infinityWord < word % signWord ∧ ofBits word = .nan) := by
  have hsize := size_eq word
  unfold ofBits
  -- the greatest exponent field is that of the infinities and the undefined numbers
  by_cases hspecial : word / fullPrecision % 2048 = 2047
  · rw [hspecial] at hsize
    rw [if_pos hspecial]
    by_cases hzero : word % fullPrecision = 0
    · rw [hzero] at hsize
      exact .inr (.inr (.inl ⟨hsize, if_pos hzero⟩))
    · refine .inr (.inr (.inr ⟨?_, if_neg hzero⟩))
      rw [hsize]
      exact Nat.lt_add_of_pos_right (Nat.pos_of_ne_zero hzero)
  · rw [if_neg hspecial]
    -- the least one keeps the fraction as it is, without a leading bit
    by_cases hsmall : word / fullPrecision % 2048 = 0
    · rw [hsmall, Nat.zero_mul, Nat.zero_add] at hsize
      refine .inl ⟨?_, ?_⟩
      · rw [hsize]
        exact Nat.mod_lt word (by decide)
      · rw [if_pos hsmall, hsize]
    · refine .inr (.inl ⟨?_, _, _, Nat.pos_of_ne_zero hsmall, hsize, if_neg hsmall⟩)
      unfold signWord infinityWord
      unfold fullPrecision at hspecial
      omega

theorem isZero_finite {negative : Bool} {significand : Nat} {exponent : Int} :
    (finite negative significand exponent).isZero = true ↔ significand = 0 := by
  cases significand <;> simp [isZero]

/-- The two zeros are the words of size zero. -/
theorem isZero_ofBits {word : Nat} : (ofBits word).isZero = true ↔ word % signWord = 0 := by
  have hpos : 0 < fullPrecision := by decide
  obtain ⟨_, hword⟩ | ⟨_, field, fraction, hfield, hsize, hword⟩ | ⟨hsize, hword⟩ |
    ⟨hsize, hword⟩ := ofBits_cases word
  · rw [hword, isZero_finite]
  · have hnormal := Nat.mul_pos hfield hpos
    rw [hword, isZero_finite, hsize]
    omega
  · rw [hword, hsize]
    exact iff_of_false (by simp [isZero]) (by decide)
  · rw [hword]
    exact iff_of_false (by decide) (by omega)

/-- Words above that of infinity are undefined. -/
theorem ofBits_eq_nan {word : Nat} (h : infinityWord < word % signWord) : ofBits word = .nan := by
  have hlarge : fullPrecision ≤ infinityWord := by decide
  obtain ⟨hsize, _⟩ | ⟨hsize, _⟩ | ⟨hsize, _⟩ | ⟨_, hword⟩ := ofBits_cases word
  · omega
  · omega
  · omega
  · exact hword

/-- **A word that is defined is the word of its double.** -/
theorem bits_ofBits {word : Nat} (h : word < 2 * signWord)
    (hdefined : word % signWord ≤ infinityWord) : (ofBits word).bits = word := by
  -- a word is its sign bit and its size
  have hsign : (if decide (signWord ≤ word) then signWord else 0) + word % signWord = word := by
    by_cases hneg : signWord ≤ word
    · rw [if_pos (decide_eq_true hneg), Nat.mod_eq_sub_mod hneg, Nat.mod_eq_of_lt (by omega)]
      omega
    · rw [if_neg (by simpa using hneg), Nat.mod_eq_of_lt (by omega), Nat.zero_add]
  obtain ⟨hsize, hword⟩ | ⟨_, field, fraction, _, hsize, hword⟩ | ⟨hsize, hword⟩ | ⟨hsize, _⟩ :=
    ofBits_cases word
  · rw [hword, bits, magnitudeBits, if_pos hsize]
    exact hsign
  · -- the leading bit of a full significand is not stored
    have hexponent : ((field : Int) - 1075 + 1075).toNat = field := by omega
    have hnormal : ¬ fullPrecision + fraction < fullPrecision := by omega
    rw [hword, bits, magnitudeBits, if_neg hnormal, hexponent, Nat.add_sub_cancel_left, ← hsize]
    exact hsign
  · rw [hword, bits, magnitudeBits, ← hsize]
    exact hsign
  · omega

theorem keyBits_of_isZero {x : Double} (h : x.isZero = true) : x.keyBits = 0 := if_pos h

/-- **Numbers and their words have the same word in keys.** -/
theorem keyBits_ofBits (word : UInt64) : (ofBits word.toNat).keyBits = keyWord word := by
  unfold keyWord
  by_cases hzero : word.toNat % signWord = 0
  · rw [if_pos hzero, keyBits_of_isZero (isZero_ofBits.mpr hzero)]
  · rw [if_neg hzero, keyBits, if_neg (mt isZero_ofBits.mp hzero)]
    by_cases hnan : infinityWord < word.toNat % signWord
    · rw [if_pos hnan, ofBits_eq_nan hnan]
      rfl
    · rw [if_neg hnan, bits_ofBits word.toNat_lt (Nat.le_of_not_lt hnan)]

theorem keyBits_unsignedZero (x : Double) : x.unsignedZero.keyBits = x.keyBits := by
  unfold unsignedZero
  cases h : x.isZero with
  | true =>
    rw [if_pos rfl, keyBits_of_isZero h]
    rfl
  | false => rw [if_neg Bool.false_ne_true]

/-- A stored number without the sign of its zero is read off its word in keys. -/
theorem IsStored.ofBits_keyBits {x : Double} (h : x.IsStored) :
    ofBits x.keyBits = x.unsignedZero := by
  obtain ⟨word, rfl⟩ := h
  rw [keyBits_ofBits, keyWord, unsignedZero]
  by_cases hzero : word.toNat % signWord = 0
  · rw [if_pos hzero, if_pos (isZero_ofBits.mpr hzero)]
    rfl
  · rw [if_neg hzero, if_neg (mt isZero_ofBits.mp hzero)]
    by_cases hnan : infinityWord < word.toNat % signWord
    · rw [if_pos hnan, ofBits_eq_nan hnan]
      rfl
    · rw [if_neg hnan]

/-- **Stored numbers are the same in keys if their words in keys are equal.** -/
theorem IsStored.unsignedZero_eq_iff {x y : Double} (hx : x.IsStored) (hy : y.IsStored) :
    x.unsignedZero = y.unsignedZero ↔ x.keyBits = y.keyBits := by
  constructor
  · intro h
    rw [← keyBits_unsignedZero x, h, keyBits_unsignedZero]
  · intro h
    rw [← hx.ofBits_keyBits, h, hy.ofBits_keyBits]

end Double
end TypedSheets

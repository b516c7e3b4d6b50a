import TypedSheets.Value.Key

/-!
# Sameness of keys

Two keys clash when they are the same up to the signs of their zeros.  Dropping those
signs everywhere turns sameness into equality, so sameness is an equivalence, and the
keys that clash with a given one are one class.

## Main definitions

* `Value.unsigned` — a value without the signs of its zeros.

## Main results

* `Value.same_iff` — **sameness is equality without the signs of zeros.**
* `Key.same_comm`, `Key.same_trans` — keys clash symmetrically and transitively.
-/

namespace TypedSheets

namespace Value

mutual

/-- A value without the signs of its zeros. -/
def unsigned : Value → Value
  | .null => .null
  | .bool b => .bool b
  | .int n => .int n
  | .uint n => .uint n
  | .float x => .float x.unsignedZero
  | .str s => .str s
  | .enum name => .enum name
  | .list items => .list (unsignedList items)
  | .record fields => .record (unsignedFields fields)

/-- Values without the signs of their zeros. -/
def unsignedList : List Value → List Value
  | [] => []
  | item :: items => item.unsigned :: unsignedList items

/-- Fields without the signs of their zeros. -/
def unsignedFields : List (String × Value) → List (String × Value)
  | [] => []
  | (name, value) :: fields => (name, value.unsigned) :: unsignedFields fields

end

mutual

/-- **Sameness is equality without the signs of zeros.** -/
theorem same_iff : ∀ a b : Value, a.same b = true ↔ a.unsigned = b.unsigned
  | .null, b => by cases b <;> simp [same, unsigned]
  | .bool _, b => by cases b <;> simp [same, unsigned]
  | .int _, b => by cases b <;> simp [same, unsigned]
  | .uint _, b => by cases b <;> simp [same, unsigned]
  | .float _, b => by cases b <;> simp [same, unsigned]
  | .str _, b => by cases b <;> simp [same, unsigned]
  | .enum _, b => by cases b <;> simp [same, unsigned]
  | .list as, b => by
    cases b with
    | list bs => simp [same, unsigned, sameList_iff as bs]
    | _ => simp [same, unsigned]
  | .record as, b => by
    cases b with
    | record bs => simp [same, unsigned, sameFields_iff as bs]
    | _ => simp [same, unsigned]

theorem sameList_iff : ∀ as bs : List Value,
    sameList as bs = true ↔ unsignedList as = unsignedList bs
  | [], bs => by cases bs <;> simp [sameList, unsignedList]
  | a :: as, bs => by
    cases bs with
    | nil => simp [sameList, unsignedList]
    | cons b bs => simp [sameList, unsignedList, same_iff a b, sameList_iff as bs]

theorem sameFields_iff : ∀ as bs : List (String × Value),
    sameFields as bs = true ↔ unsignedFields as = unsignedFields bs
  | [], bs => by cases bs <;> simp [sameFields, unsignedFields]
  | (m, a) :: as, bs => by
    cases bs with
    | nil => simp [sameFields, unsignedFields]
    | cons entry bs =>
      obtain ⟨n, b⟩ := entry
      simp [sameFields, unsignedFields, same_iff a b, sameFields_iff as bs, and_assoc]

end

end Value

namespace Key

theorem same_iff {a b : Key} :
    a.same b = true ↔ Value.unsignedList a.parts = Value.unsignedList b.parts :=
  Value.sameList_iff a.parts b.parts

theorem same_comm (a b : Key) : a.same b = b.same a := by
  rw [Bool.eq_iff_iff, same_iff, same_iff, eq_comm]

theorem same_trans {a b c : Key} (hab : a.same b = true) (hbc : b.same c = true) :
    a.same c = true :=
  same_iff.mpr ((same_iff.mp hab).trans (same_iff.mp hbc))

end Key
end TypedSheets

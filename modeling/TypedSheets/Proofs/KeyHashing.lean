import TypedSheets.Data.Rows
import TypedSheets.Proofs.BitPatterns
import TypedSheets.Proofs.Result
import TypedSheets.Proofs.Sameness

/-!
# Keys in tables

Rows that are read are kept by their keys, to find out whether a key comes again.  Searching them
one by one is the plain way.  A table that puts rows into buckets looks at one bucket only, the one
that the hash of a key picks, and so finds every key that is there only if keys that are the same
have one hash.

A hash is computed from the pieces that a key is fed in as: a tag for the kind of each value, the
lengths of lists and records, and plain data.  Keys that are the same give the same pieces, at every
depth.  Conversely the pieces tell keys that differ apart, as far as their numbers are doubles.

## Main definitions

* `HashToken`, `Key.tokens` — what a key is fed in as.
* `Value.floats`, `Key.IsStored` — the numbers of a value, and keys whose numbers are doubles.
* `KeyTable` — rows by key in buckets.
* `Catalog.readRowsHashed` — the values of data rows, read with such a table.

## Main results

* `Value.tokens_unsigned` — the signs of zeros are not fed in.
* `Key.same_iff_tokens_eq` — **keys are the same if they are fed in as the same pieces.**
* `KeyTable.get?_insert` — what a table holds after a row is put in.
* `Catalog.readRowsHashed_eq` — rows are read with a table as without.
* `Key.same_lawful` — **sameness of keys suits every table.**
-/

namespace TypedSheets

/-! ### Pieces of keys -/

/-- A piece of what is hashed. -/
inductive HashToken where
  /-- Which kind of value follows. -/
  | kind (index : Nat)
  | flag (b : Bool)
  | int (n : Int)
  /-- An unsigned word. -/
  | word (n : Nat)
  /-- How many values follow. -/
  | length (n : Nat)
  | text (s : String)
  deriving DecidableEq, Repr

namespace Value

mutual

/-- What a value is fed in as. -/
def tokens : Value → List HashToken
  | .null => [.kind 0]
  | .bool b => [.kind 1, .flag b]
  | .int n => [.kind 2, .int n]
  | .uint n => [.kind 3, .word n]
  | .float x => [.kind 4, .word x.keyBits]
  | .str s => [.kind 5, .text s]
  | .enum name => [.kind 6, .text name]
  | .list items => .kind 7 :: .length items.length :: tokensList items
  | .record fields => .kind 8 :: .length fields.length :: tokensFields fields

/-- What the items of a list are fed in as. -/
def tokensList : List Value → List HashToken
  | [] => []
  | item :: items => item.tokens ++ tokensList items

/-- What the fields of a record are fed in as. -/
def tokensFields : List (String × Value) → List HashToken
  | [] => []
  | (name, value) :: fields => .text name :: (value.tokens ++ tokensFields fields)

end

mutual

/-- The numbers of a value, at every depth. -/
def floats : Value → List Double
  | .float x => [x]
  | .list items => floatsList items
  | .record fields => floatsFields fields
  | _ => []

/-- The numbers of the items of a list. -/
def floatsList : List Value → List Double
  | [] => []
  | item :: items => item.floats ++ floatsList items

/-- The numbers of the fields of a record. -/
def floatsFields : List (String × Value) → List Double
  | [] => []
  | (_, value) :: fields => value.floats ++ floatsFields fields

end

/-! ### The same pieces -/

theorem length_unsignedList (items : List Value) : (unsignedList items).length = items.length := by
  induction items with
  | nil => rfl
  | cons item items ih => simp [unsignedList, ih]

theorem length_unsignedFields (fields : List (String × Value)) :
    (unsignedFields fields).length = fields.length := by
  induction fields with
  | nil => rfl
  | cons field fields ih => simp [unsignedFields, ih]

mutual

/-- **The signs of zeros are not fed in.** -/
theorem tokens_unsigned : ∀ value : Value, value.unsigned.tokens = value.tokens
  | .null | .bool _ | .int _ | .uint _ | .str _ | .enum _ => by simp [unsigned]
  | .float x => by simp [unsigned, tokens, Double.keyBits_unsignedZero]
  | .list items => by
    simp [unsigned, tokens, length_unsignedList, tokensList_unsigned items]
  | .record fields => by
    simp [unsigned, tokens, length_unsignedFields, tokensFields_unsigned fields]

theorem tokensList_unsigned : ∀ items : List Value,
    tokensList (unsignedList items) = tokensList items
  | [] => rfl
  | item :: items => by
    simp [unsignedList, tokensList, tokens_unsigned item, tokensList_unsigned items]

theorem tokensFields_unsigned : ∀ fields : List (String × Value),
    tokensFields (unsignedFields fields) = tokensFields fields
  | [] => rfl
  | (name, value) :: fields => by
    simp [unsignedFields, tokensFields, tokens_unsigned value, tokensFields_unsigned fields]

end

mutual

/-- The pieces of a value end where it ends, whatever follows, and tell it apart. -/
theorem unsigned_eq_of_tokens : ∀ (a b : Value) {rest rest' : List HashToken},
    (∀ x ∈ a.floats, x.IsStored) → (∀ x ∈ b.floats, x.IsStored) →
    a.tokens ++ rest = b.tokens ++ rest' → a.unsigned = b.unsigned ∧ rest = rest'
  | .null, b, _, _, _, _, h => by cases b <;> simp_all [tokens, unsigned]
  | .bool _, b, _, _, _, _, h => by cases b <;> simp_all [tokens, unsigned]
  | .int _, b, _, _, _, _, h => by cases b <;> simp_all [tokens, unsigned]
  | .uint _, b, _, _, _, _, h => by cases b <;> simp_all [tokens, unsigned]
  | .float x, b, _, _, ha, hb, h => by
    cases b with
    | float y =>
      simp only [floats, List.mem_singleton, forall_eq] at ha hb
      simpa [tokens, unsigned, ha.unsignedZero_eq_iff hb] using h
    | _ => simp [tokens] at h
  | .str _, b, _, _, _, _, h => by cases b <;> simp_all [tokens, unsigned]
  | .enum _, b, _, _, _, _, h => by cases b <;> simp_all [tokens, unsigned]
  -- the length comes first, so both lists end at the same piece
  | .list as, b, _, _, ha, hb, h => by
    cases b with
    | list bs =>
      simp only [tokens, List.cons_append, List.cons.injEq, HashToken.length.injEq, true_and] at h
      obtain ⟨hitems, hrest⟩ := unsignedList_eq_of_tokens as bs h.1 ha hb h.2
      exact ⟨congrArg Value.list hitems, hrest⟩
    | _ => simp [tokens] at h
  | .record as, b, _, _, ha, hb, h => by
    cases b with
    | record bs =>
      simp only [tokens, List.cons_append, List.cons.injEq, HashToken.length.injEq, true_and] at h
      obtain ⟨hfields, hrest⟩ := unsignedFields_eq_of_tokens as bs h.1 ha hb h.2
      exact ⟨congrArg Value.record hfields, hrest⟩
    | _ => simp [tokens] at h

theorem unsignedList_eq_of_tokens : ∀ (as bs : List Value) {rest rest' : List HashToken},
    as.length = bs.length → (∀ x ∈ floatsList as, x.IsStored) →
    (∀ x ∈ floatsList bs, x.IsStored) → tokensList as ++ rest = tokensList bs ++ rest' →
      unsignedList as = unsignedList bs ∧ rest = rest'
  | [], [], _, _, _, _, _, h => ⟨rfl, h⟩
  | a :: as, b :: bs, _, _, hlength, ha, hb, h => by
    simp only [floatsList, List.mem_append, or_imp, forall_and] at ha hb
    rw [tokensList, tokensList, List.append_assoc, List.append_assoc] at h
    obtain ⟨hitem, h⟩ := unsigned_eq_of_tokens a b ha.1 hb.1 h
    obtain ⟨hitems, hrest⟩ :=
      unsignedList_eq_of_tokens as bs (Nat.succ.inj hlength) ha.2 hb.2 h
    exact ⟨by rw [unsignedList, unsignedList, hitem, hitems], hrest⟩

theorem unsignedFields_eq_of_tokens : ∀ (as bs : List (String × Value))
    {rest rest' : List HashToken}, as.length = bs.length → (∀ x ∈ floatsFields as, x.IsStored) →
    (∀ x ∈ floatsFields bs, x.IsStored) → tokensFields as ++ rest = tokensFields bs ++ rest' →
      unsignedFields as = unsignedFields bs ∧ rest = rest'
  | [], [], _, _, _, _, _, h => ⟨rfl, h⟩
  | (m, a) :: as, (n, b) :: bs, _, _, hlength, ha, hb, h => by
    simp only [floatsFields, List.mem_append, or_imp, forall_and] at ha hb
    rw [tokensFields, tokensFields, List.cons_append, List.cons_append, List.append_assoc,
      List.append_assoc, List.cons.injEq, HashToken.text.injEq] at h
    obtain ⟨hvalue, hlater⟩ := unsigned_eq_of_tokens a b ha.1 hb.1 h.2
    obtain ⟨hfields, hrest⟩ :=
      unsignedFields_eq_of_tokens as bs (Nat.succ.inj hlength) ha.2 hb.2 hlater
    exact ⟨by rw [unsignedFields, unsignedFields, h.1, hvalue, hfields], hrest⟩

end

end Value

namespace Key

/-- What a key is fed in as. -/
def tokens (key : Key) : List HashToken := .length key.parts.length :: Value.tokensList key.parts

/-- That the numbers of a key are doubles. -/
def IsStored (key : Key) : Prop := ∀ x ∈ Value.floatsList key.parts, x.IsStored

theorem same_equivalence : Equivalence fun a b : Key => a.same b = true where
  refl key := same_iff.mpr rfl
  symm h := by rwa [same_comm]
  trans := same_trans

/-- Keys that are the same are the same as the same keys. -/
theorem same_congr {a b : Key} (h : a.same b = true) (other : Key) :
    other.same a = other.same b := by
  rw [Bool.eq_iff_iff]
  exact ⟨fun ha => same_trans ha h, fun hb => same_trans hb (same_comm a b ▸ h)⟩

/-- Keys that are the same are fed in as the same pieces. -/
theorem tokens_eq_of_same {a b : Key} (h : a.same b = true) : a.tokens = b.tokens := by
  have hparts := same_iff.mp h
  rw [tokens, tokens, ← Value.length_unsignedList a.parts, ← Value.tokensList_unsigned a.parts,
    hparts, Value.length_unsignedList, Value.tokensList_unsigned]

/-- **Keys are the same if they are fed in as the same pieces.** -/
theorem same_iff_tokens_eq {a b : Key} (ha : a.IsStored) (hb : b.IsStored) :
    a.same b = true ↔ a.tokens = b.tokens := by
  refine ⟨tokens_eq_of_same, fun h => ?_⟩
  rw [tokens, tokens, List.cons.injEq, HashToken.length.injEq] at h
  -- nothing follows the parts of a key
  have happend : Value.tokensList a.parts ++ [] = Value.tokensList b.parts ++ [] := by rw [h.2]
  exact same_iff.mpr (Value.unsignedList_eq_of_tokens _ _ h.1 ha hb happend).1

end Key

/-! ### Tables of rows -/

/-- Rows by key in buckets. -/
def KeyTable (β : Type) : Type := β → List (Key × Nat)

namespace KeyTable

variable {β : Type}

/-- The table without rows. -/
def empty : KeyTable β := fun _ => []

/-- The row of a key, which is looked for in the bucket that its hash picks. -/
def get? (hash : List HashToken → β) (table : KeyTable β) (key : Key) : Option Nat :=
  ((table (hash key.tokens)).find? fun entry => key.same entry.1).map Prod.snd

/-- A bucket with a row put in, in the place of one under the same key. -/
def putIn (key : Key) (row : Nat) : List (Key × Nat) → List (Key × Nat)
  | [] => [(key, row)]
  | entry :: entries =>
    if key.same entry.1 then (entry.1, row) :: entries else entry :: putIn key row entries

/-- The table with a row put in. -/
def insert [DecidableEq β] (hash : List HashToken → β) (table : KeyTable β) (key : Key)
    (row : Nat) : KeyTable β :=
  fun bucket =>
    if bucket = hash key.tokens then putIn key row (table bucket) else table bucket

/-- The table after rows were put in, one after another. -/
def ofHistory [DecidableEq β] (hash : List HashToken → β) (history : List (Key × Nat)) :
    KeyTable β :=
  history.foldl (fun table entry => insert hash table entry.1 entry.2) empty

/-- What a bucket holds after a row is put in. -/
theorem find?_putIn (key other : Key) (row : Nat) (entries : List (Key × Nat)) :
    ((putIn key row entries).find? fun entry => other.same entry.1).map Prod.snd
      = if other.same key then some row
        else (entries.find? fun entry => other.same entry.1).map Prod.snd := by
  induction entries with
  | nil => cases h : other.same key <;> simp [putIn, h]
  | cons entry entries ih =>
    rw [putIn]
    cases hentry : key.same entry.1 with
    | true =>
      -- the row takes the place of the entry, under whose key it is found as well
      have hsame := Key.same_congr hentry other
      cases h : other.same key <;> simp [← hsame, h]
    | false =>
      rw [if_neg Bool.false_ne_true, List.find?_cons, List.find?_cons]
      cases h : other.same entry.1 with
      | true =>
        have hother : other.same key = false := by
          rw [← Bool.not_eq_true]
          intro hkey
          rw [Key.same_trans (Key.same_comm other key ▸ hkey) h] at hentry
          cases hentry
        rw [hother]
        rfl
      | false => exact ih

variable [DecidableEq β] (hash : List HashToken → β)

/-- **What a table holds after a row is put in.** -/
theorem get?_insert (table : KeyTable β) (key other : Key) (row : Nat) :
    (table.insert hash key row).get? hash other
      = if other.same key then some row else table.get? hash other := by
  unfold get? insert
  by_cases hbucket : hash other.tokens = hash key.tokens
  · rw [if_pos hbucket, find?_putIn]
  · have hother : ¬ other.same key = true := by
      -- the same key would be looked for in the same bucket
      intro h
      exact hbucket (congrArg hash (Key.tokens_eq_of_same h))
    rw [if_neg hbucket, if_neg hother]

theorem get?_foldl_insert (key : Key) :
    ∀ (history : List (Key × Nat)) (table : KeyTable β),
      (history.foldl (fun table entry => insert hash table entry.1 entry.2) table).get? hash key
        = ((history.reverse.find? fun entry => key.same entry.1).map Prod.snd).or
            (table.get? hash key) := by
  intro history
  induction history with
  | nil => intro table; rfl
  | cons entry history ih =>
    intro table
    rw [List.foldl_cons, ih, get?_insert, List.reverse_cons, List.find?_append]
    cases history.reverse.find? fun entry => key.same entry.1 with
    | some found => rfl
    | none => cases h : key.same entry.1 <;> simp [h]

/-- A table holds what was put in last under the same key. -/
theorem get?_ofHistory (history : List (Key × Nat)) (key : Key) :
    (ofHistory hash history).get? hash key
      = (history.reverse.find? fun entry => key.same entry.1).map Prod.snd := by
  rw [ofHistory, get?_foldl_insert]
  exact Option.or_none

/-- **A table finds a row exactly when one was put in under the same key**, and it is the last
such row. -/
theorem get?_ofHistory_eq_some_iff (history : List (Key × Nat)) (key : Key) (row : Nat) :
    (ofHistory hash history).get? hash key = some row ↔
      ∃ before earlier after, history = before ++ (earlier, row) :: after ∧
        key.same earlier = true ∧ ∀ later ∈ after, key.same later.1 = false := by
  rw [get?_ofHistory, Option.map_eq_some_iff]
  -- the last row put in is the first one found from behind
  constructor
  · rintro ⟨⟨earlier, row⟩, hfind, rfl⟩
    obtain ⟨hsame, after, before, hhistory, hafter⟩ := List.find?_eq_some_iff_append.mp hfind
    refine ⟨before.reverse, earlier, after.reverse, ?_, hsame, ?_⟩
    · rw [← List.reverse_reverse history, hhistory]
      simp
    · intro later hlater
      simpa using hafter later (List.mem_reverse.mp hlater)
  · rintro ⟨before, earlier, after, rfl, hsame, hafter⟩
    refine ⟨(earlier, row), List.find?_eq_some_iff_append.mpr ⟨hsame, after.reverse,
      before.reverse, by simp, ?_⟩, rfl⟩
    intro later hlater
    simpa using hafter later (List.mem_reverse.mp hlater)

theorem exists_get?_ofHistory_iff (history : List (Key × Nat)) (key : Key) :
    (∃ row, (ofHistory hash history).get? hash key = some row) ↔
      ∃ entry ∈ history, key.same entry.1 = true := by
  rw [get?_ofHistory, ← Option.isSome_iff_exists, Option.isSome_map, List.find?_isSome]
  simp

end KeyTable

/-! ### Rows read with a table -/

namespace Catalog

variable {β : Type} [DecidableEq β]

/-- The values of data rows, where `table` holds the rows before them by their keys. -/
def readRowsHashed (hash : List HashToken → β) (catalog : Catalog) (view : View) (entity : Shape)
    (plans : List Plan) (keys : List String) :
    List Nat → KeyTable β → Except Fault (List Value)
  | [], _ => .ok []
  | row :: rows, table => do
    let value ← catalog.readRow view entity plans row
    let key := keyOf keys value
    match table.get? hash key with
    | some first => throw (.repeatedKey key (view.place row 0) (view.place first 0))
    | none =>
      let values ←
        catalog.readRowsHashed hash view entity plans keys rows (table.insert hash key row)
      return value :: values

/-- Rows are read with a table as with a list that holds the same rows. -/
theorem readRowsHashed_eq {hash : List HashToken → β} {catalog : Catalog} {view : View}
    {entity : Shape} {plans : List Plan} {keys : List String} :
    ∀ (rows : List Nat) (table : KeyTable β) (seen : List (Key × Nat)),
      (∀ key, table.get? hash key = (seen.find? fun entry => key.same entry.1).map Prod.snd) →
      catalog.readRowsHashed hash view entity plans keys rows table
        = catalog.readRows view entity plans keys rows seen := by
  intro rows
  induction rows with
  | nil => intro table seen _; rfl
  | cons row rows ih =>
    intro table seen hseen
    rw [readRowsHashed, readRows]
    congr 1
    funext value
    -- table and list find the same row under every key, also after this row
    have hnext : ∀ key, (table.insert hash (keyOf keys value) row).get? hash key
        = (((keyOf keys value, row) :: seen).find? fun entry => key.same entry.1).map Prod.snd := by
      intro key
      rw [KeyTable.get?_insert, hseen, List.find?_cons]
      cases key.same (keyOf keys value) <;> rfl
    dsimp only
    rw [hseen, ih _ _ hnext]
    cases seen.find? fun entry => (keyOf keys value).same entry.1 <;> rfl

end Catalog

/-- **Sameness of keys suits every table.**  It is an equivalence, and keys that are the same are
fed in as the same pieces; keys that are fed in so are the same, if their numbers are doubles, which
are compared by their words up to the sign of zero and the kind of undefined number.  So, whatever
is computed from the pieces, a table finds a row exactly when one was put in under the same key, and
rows are read with a table as they are by searching. -/
theorem Key.same_lawful :
    Equivalence (fun a b : Key => a.same b = true) ∧
    (∀ a b : Key, a.same b = true → a.tokens = b.tokens) ∧
    (∀ a b : Key, a.IsStored → b.IsStored → a.tokens = b.tokens → a.same b = true) ∧
    (∀ u v : UInt64, (Value.float (.ofBits u.toNat)).same (.float (.ofBits v.toNat)) = true ↔
      keyWord u = keyWord v) ∧
    ∀ (β : Type) [DecidableEq β] (hash : List HashToken → β),
      (∀ history key, (∃ row, (KeyTable.ofHistory hash history).get? hash key = some row) ↔
        ∃ entry ∈ history, key.same entry.1 = true) ∧
      (∀ history key row, (KeyTable.ofHistory hash history).get? hash key = some row ↔
        ∃ before earlier after, history = before ++ (earlier, row) :: after ∧
          key.same earlier = true ∧ ∀ later ∈ after, key.same later.1 = false) ∧
      ∀ (catalog : Catalog) view entity plans keys rows,
        catalog.readRowsHashed hash view entity plans keys rows KeyTable.empty
          = catalog.readRows view entity plans keys rows [] := by
  refine ⟨same_equivalence, fun a b => tokens_eq_of_same,
    fun a b ha hb => (same_iff_tokens_eq ha hb).mpr, fun u v => ?_, fun β _ hash =>
    ⟨KeyTable.exists_get?_ofHistory_iff hash, KeyTable.get?_ofHistory_eq_some_iff hash, ?_⟩⟩
  · -- stored numbers have one word each, up to what comparison ignores
    have hstored : ∀ word : UInt64, (Double.ofBits word.toNat).IsStored := fun word => ⟨word, rfl⟩
    rw [Value.same_iff, ← Double.keyBits_ofBits u, ← Double.keyBits_ofBits v,
      ← (hstored u).unsignedZero_eq_iff (hstored v)]
    simp [Value.unsigned]
  · intro catalog view entity plans keys rows
    exact Catalog.readRowsHashed_eq rows KeyTable.empty [] fun key => rfl

/-! ### Two keys that are the same -/

namespace Scales

/-- A key with a number of either sign and an undefined one, both inside other values. -/
def reading (negative : Bool) : Key :=
  ⟨[.list [.float (.zero negative)], .record [("unit", .float .nan)]]⟩

theorem isStored_reading (negative : Bool) : (reading negative).IsStored := by
  intro x hx
  simp only [reading, Value.floatsList, Value.floats, Value.floatsFields, List.append_nil,
    List.cons_append, List.nil_append, List.mem_cons, List.not_mem_nil, or_false] at hx
  rcases hx with rfl | rfl
  · cases negative with
    | false => exact ⟨0, by decide +kernel⟩
    | true => exact ⟨9223372036854775808, by decide +kernel⟩
  · exact ⟨9221120237041090560, by decide +kernel⟩

theorem same_lawful_reading :
    (reading true).tokens = (reading false).tokens ∧
      (reading true).same (reading false) = true ∧
      ∃ row, (KeyTable.ofHistory List.length [(reading true, 7)]).get? List.length (reading false)
        = some row := by
  obtain ⟨hequiv, htokens, hsame, _, htable⟩ := Key.same_lawful
  have hread := hsame (reading true) (reading false) (isStored_reading true)
    (isStored_reading false) (by decide +kernel)
  refine ⟨htokens _ _ hread, hread, ?_⟩
  exact ((htable Nat List.length).1 _ _).mpr ⟨_, List.mem_singleton_self _, hequiv.symm hread⟩

end Scales
end TypedSheets

import TypedSheets.OrderedMap

/-!
# Laws of ordered maps

What reading finds after writing, and what writing does to the list of names.  A
record is only ever written to under names it holds, so the law used most is that
such a write keeps the names and their order.

## Main results

* `get?_insert_self`, `get?_insert_of_ne` — reading after writing.
* `names_insert_of_mem` — **writing to a name that is held keeps all names in place.**
* `insert_comm` — writes to two names that are held can be made in either order.
* `get?_foldl_insertNew` — **the first writer of a name wins** where no name is written twice.
* `ofList_eq_self` — a list in which no name stands twice is its own map.
-/

namespace TypedSheets
namespace OrderedMap

variable {α : Type}

/-! ### Reading -/

/-- A map finds nothing under exactly the names it does not hold. -/
theorem get?_eq_none_iff {map : List (String × α)} {name : String} :
    get? map name = none ↔ name ∉ map.map Prod.fst := by
  induction map with
  | nil => simp [get?]
  | cons entry rest ih =>
    obtain ⟨key, value⟩ := entry
    by_cases h : key = name
    · simp [get?, h]
    · simp [get?, h, ih, Ne.symm h]

theorem exists_get?_of_mem {map : List (String × α)} {name : String}
    (h : name ∈ map.map Prod.fst) : ∃ value, get? map name = some value := by
  cases hget : get? map name with
  | none => exact absurd h (get?_eq_none_iff.mp hget)
  | some value => exact ⟨value, rfl⟩

theorem mem_of_get? {map : List (String × α)} {name : String} {value : α}
    (h : get? map name = some value) : (name, value) ∈ map := by
  induction map with
  | nil => simp [get?] at h
  | cons entry rest ih =>
    obtain ⟨key, old⟩ := entry
    by_cases hkey : key = name
    · subst hkey
      simp only [get?, ite_true, Option.some.injEq] at h
      simp [h]
    · simp only [get?, hkey, ite_false] at h
      exact List.mem_cons_of_mem _ (ih h)

theorem contains_iff {map : List (String × α)} {name : String} :
    contains map name = true ↔ name ∈ map.map Prod.fst := by
  simp [contains, List.any_eq_true]

theorem get?_append (map rest : List (String × α)) (name : String) :
    get? (map ++ rest) name = (get? map name).or (get? rest name) := by
  induction map with
  | nil => rfl
  | cons entry map ih =>
    obtain ⟨key, value⟩ := entry
    by_cases h : key = name
    · simp [get?, h]
    · simp [get?, h, ih]

theorem get?_map_snd {β : Type} (f : α → β) (map : List (String × α)) (name : String) :
    get? (map.map fun entry => (entry.1, f entry.2)) name = (get? map name).map f := by
  induction map with
  | nil => rfl
  | cons entry rest ih =>
    obtain ⟨key, value⟩ := entry
    by_cases h : key = name
    · simp [get?, h]
    · simp [get?, h, ih]

theorem insert_map_snd {β : Type} (f : α → β) (map : List (String × α)) (name : String)
    (value : α) :
    insert (map.map fun entry => (entry.1, f entry.2)) name (f value)
      = (insert map name value).map fun entry => (entry.1, f entry.2) := by
  induction map with
  | nil => rfl
  | cons entry rest ih =>
    obtain ⟨key, old⟩ := entry
    by_cases h : key = name
    · simp [insert, h]
    · simp [insert, h, ih]

/-- A list in which no name stands twice finds each of its pairs. -/
theorem get?_of_mem {map : List (String × α)} (hnodup : (map.map Prod.fst).Nodup)
    {name : String} {value : α} (h : (name, value) ∈ map) : get? map name = some value := by
  induction map with
  | nil => simp at h
  | cons entry map ih =>
    obtain ⟨key, old⟩ := entry
    rw [List.map_cons, List.nodup_cons] at hnodup
    rcases List.mem_cons.mp h with heq | hmem
    · cases heq
      simp [get?]
    · have hne : key ≠ name := by
        intro heq
        exact hnodup.1 (List.mem_map.mpr ⟨(name, value), hmem, heq.symm⟩)
      simp [get?, hne, ih hnodup.2 hmem]

/-! ### Reading after writing -/

@[simp] theorem get?_insert_self (map : List (String × α)) (name : String) (value : α) :
    get? (insert map name value) name = some value := by
  induction map with
  | nil => simp [insert, get?]
  | cons entry rest ih =>
    obtain ⟨key, old⟩ := entry
    by_cases h : key = name
    · simp [insert, get?, h]
    · simp [insert, get?, h, ih]

theorem get?_insert_of_ne (map : List (String × α)) {name other : String} (value : α)
    (h : name ≠ other) : get? (insert map name value) other = get? map other := by
  induction map with
  | nil => simp [insert, get?, h]
  | cons entry rest ih =>
    obtain ⟨key, old⟩ := entry
    by_cases hkey : key = name
    · subst hkey
      simp [insert, get?, h]
    · by_cases hother : key = other
      · subst hother
        simp [insert, get?, hkey]
      · simp [insert, get?, hkey, hother, ih]

@[simp] theorem insert_insert_self (map : List (String × α)) (name : String) (a b : α) :
    insert (insert map name a) name b = insert map name b := by
  induction map with
  | nil => simp [insert]
  | cons entry rest ih =>
    obtain ⟨key, old⟩ := entry
    by_cases h : key = name
    · simp [insert, h]
    · simp [insert, h, ih]

/-- Writing what a map holds already changes nothing. -/
theorem insert_eq_self {map : List (String × α)} {name : String} {value : α}
    (h : get? map name = some value) : insert map name value = map := by
  induction map with
  | nil => simp [get?] at h
  | cons entry rest ih =>
    obtain ⟨key, old⟩ := entry
    by_cases hkey : key = name
    · simp only [get?, hkey, ite_true, Option.some.injEq] at h
      simp [insert, hkey, h]
    · simp only [get?, hkey, ite_false] at h
      simp [insert, hkey, ih h]

/-! ### Names -/

/-- **Writing to a name that is held keeps all names in place.** -/
theorem names_insert_of_mem {map : List (String × α)} {name : String} (value : α)
    (h : name ∈ map.map Prod.fst) : (insert map name value).map Prod.fst = map.map Prod.fst := by
  induction map with
  | nil => simp at h
  | cons entry rest ih =>
    obtain ⟨key, old⟩ := entry
    by_cases hkey : key = name
    · simp [insert, hkey]
    · have hrest : name ∈ rest.map Prod.fst := by
        simpa [Ne.symm hkey] using h
      simp [insert, hkey, ih hrest]

/-- Writes to two names that are held can be made in either order. -/
theorem insert_comm {map : List (String × α)} {name other : String} (hne : name ≠ other)
    (hname : name ∈ map.map Prod.fst) (hother : other ∈ map.map Prod.fst) (a b : α) :
    insert (insert map name a) other b = insert (insert map other b) name a := by
  induction map with
  | nil => simp at hname
  | cons entry rest ih =>
    obtain ⟨key, old⟩ := entry
    rw [List.map_cons, List.mem_cons] at hname hother
    by_cases hkey : key = name
    · simp [insert, hkey, hne]
    · by_cases hkey' : key = other
      · simp [insert, hkey', Ne.symm hne]
      · have hrest := ih (hname.resolve_left (Ne.symm hkey)) (hother.resolve_left (Ne.symm hkey'))
        simp [insert, hkey, hkey', hrest]

theorem insert_eq_append {map : List (String × α)} {name : String} (value : α)
    (h : name ∉ map.map Prod.fst) : insert map name value = map ++ [(name, value)] := by
  induction map with
  | nil => rfl
  | cons entry rest ih =>
    obtain ⟨key, old⟩ := entry
    simp only [List.map_cons, List.mem_cons, not_or] at h
    simp [insert, Ne.symm h.1, ih h.2]

/-! ### Writing new names only -/

theorem get?_insertNew (map : List (String × α)) (name : String) (value : α) (other : String) :
    get? (insertNew map name value) other = (get? map other).or (get? [(name, value)] other) := by
  rw [insertNew]
  split
  · next hheld =>
    obtain ⟨old, hold⟩ := exists_get?_of_mem (contains_iff.mp hheld)
    by_cases h : name = other
    · subst h
      rw [hold, Option.some_or]
    · simp [get?, h]
  · rw [get?_append]

/-- **The first writer of a name wins** where no name is written twice: what was there
before, else the first of the pairs. -/
theorem get?_foldl_insertNew (pairs : List (String × α)) (name : String) :
    ∀ map : List (String × α),
      get? (pairs.foldl (fun map pair => insertNew map pair.1 pair.2) map) name
        = (get? map name).or (get? pairs name) := by
  induction pairs with
  | nil => intro map; simp [get?]
  | cons pair rest ih =>
    intro map
    rw [List.foldl_cons, ih, get?_insertNew, Option.or_assoc, ← get?_append]
    rfl

theorem nodup_insertNew {map : List (String × α)} (name : String) (value : α)
    (h : (map.map Prod.fst).Nodup) : ((insertNew map name value).map Prod.fst).Nodup := by
  rw [insertNew]
  split
  · exact h
  · next hnew =>
    rw [List.map_append, List.nodup_append]
    refine ⟨h, by simp, ?_⟩
    intro a ha b hb hab
    obtain rfl : b = name := by simpa using hb
    exact hnew (contains_iff.mpr (hab ▸ ha))

theorem nodup_foldl_insertNew (pairs : List (String × α)) : ∀ {map : List (String × α)},
    (map.map Prod.fst).Nodup →
      ((pairs.foldl (fun map pair => insertNew map pair.1 pair.2) map).map Prod.fst).Nodup := by
  induction pairs with
  | nil => intro map h; exact h
  | cons pair rest ih =>
    intro map h
    exact ih (nodup_insertNew pair.1 pair.2 h)

/-! ### Maps of lists -/

/-- Writing pairs under new names one after another appends them. -/
theorem foldl_insert_eq_append (pairs : List (String × α)) : ∀ map : List (String × α),
    ((map ++ pairs).map Prod.fst).Nodup →
      pairs.foldl (fun map pair => insert map pair.1 pair.2) map = map ++ pairs := by
  induction pairs with
  | nil => intro map _; simp
  | cons pair rest ih =>
    intro map hnodup
    obtain ⟨name, value⟩ := pair
    have hnew : name ∉ map.map Prod.fst := by
      intro hmem
      rw [List.map_append, List.nodup_append] at hnodup
      exact hnodup.2.2 name hmem name (by simp) rfl
    rw [List.foldl_cons, insert_eq_append value hnew, ih _ (by simpa using hnodup)]
    simp

/-- A list in which no name stands twice is its own map. -/
theorem ofList_eq_self {pairs : List (String × α)} (h : (pairs.map Prod.fst).Nodup) :
    ofList pairs = pairs := by
  simpa [ofList] using foldl_insert_eq_append pairs [] (by simpa using h)

theorem get?_filterMap_of_not_mem {β : Type} {things : List β} {name : β → String}
    (value? : β → Option α) {key : String} (h : key ∉ things.map name) :
    get? (things.filterMap fun t => (value? t).map fun value => (name t, value)) key = none := by
  rw [get?_eq_none_iff]
  intro hkey
  obtain ⟨⟨_, value⟩, hentry, rfl⟩ := List.mem_map.mp hkey
  obtain ⟨thing, hthing, heq⟩ := List.mem_filterMap.mp hentry
  obtain ⟨_, -, hpair⟩ := Option.map_eq_some_iff.mp heq
  cases hpair
  exact h (List.mem_map_of_mem hthing)

/-- Under the name of one of several things, a map made of some of them finds what
belongs to that thing, if anything. -/
theorem get?_filterMap_of_nodup {β : Type} {things : List β} {name : β → String}
    (value? : β → Option α) (hnodup : (things.map name).Nodup) {thing : β}
    (hmem : thing ∈ things) :
    get? (things.filterMap fun t => (value? t).map fun value => (name t, value)) (name thing)
      = value? thing := by
  induction things with
  | nil => simp at hmem
  | cons head tail ih =>
    rw [List.map_cons, List.nodup_cons] at hnodup
    rcases List.mem_cons.mp hmem with rfl | htail
    · cases hvalue : value? thing with
      | none => simp [hvalue, get?_filterMap_of_not_mem value? hnodup.1]
      | some value => simp [hvalue, get?]
    · have hne : name head ≠ name thing := by
        intro heq
        exact hnodup.1 (heq ▸ List.mem_map_of_mem htail)
      cases hvalue : value? head with
      | none => simp [hvalue, ih hnodup.2 htail]
      | some value => simp [hvalue, get?, hne, ih hnodup.2 htail]

theorem get?_map_of_nodup {β : Type} {things : List β} {name : β → String} (value : β → α)
    (hnodup : (things.map name).Nodup) {thing : β} (hmem : thing ∈ things) :
    get? (things.map fun t => (name t, value t)) (name thing) = some (value thing) := by
  rw [← List.filterMap_eq_map']
  exact get?_filterMap_of_nodup (fun t => some (value t)) hnodup hmem

end OrderedMap
end TypedSheets

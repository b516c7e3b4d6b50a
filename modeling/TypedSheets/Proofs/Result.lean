import Mathlib.Data.List.Forall2

/-!
# Results

Every reader gives a result or the error that stopped it.  These lemmas take a
successful or failed run apart, one step at a time.
-/

namespace TypedSheets

variable {ε α β : Type}

/-- A run of two steps succeeds when both do. -/
theorem bind_eq_ok {x : Except ε α} {f : α → Except ε β} {b : β} :
    x >>= f = .ok b ↔ ∃ a, x = .ok a ∧ f a = .ok b := by
  cases x with
  | error e => simp [bind, Except.bind]
  | ok a => simp [bind, Except.bind]

theorem bind_eq_error {x : Except ε α} {f : α → Except ε β} {e : ε} :
    x >>= f = .error e ↔ x = .error e ∨ ∃ a, x = .ok a ∧ f a = .error e := by
  cases x with
  | error e => simp [bind, Except.bind]
  | ok a => simp [bind, Except.bind]

/-- A step that only puts a result together does not fail. -/
theorem bind_ok_eq_error {x : Except ε α} {f : α → β} {e : ε} :
    (x >>= fun a => .ok (f a)) = .error e ↔ x = .error e := by
  cases x with
  | error e => simp [bind, Except.bind]
  | ok a => simp [bind, Except.bind]

theorem map_eq_ok {x : Except ε α} {f : α → β} {b : β} :
    x.map f = .ok b ↔ ∃ a, x = .ok a ∧ f a = b := by
  cases x with
  | error e => simp [Except.map]
  | ok a => simp [Except.map]

theorem map_eq_error {x : Except ε α} {f : α → β} {e : ε} :
    x.map f = .error e ↔ x = .error e := by
  cases x with
  | error e => simp [Except.map]
  | ok a => simp [Except.map]

theorem exists_ok_of_isOk {x : Except ε α} (h : x.isOk = true) : ∃ a, x = .ok a := by
  cases x with
  | error e => cases h
  | ok a => exact ⟨a, rfl⟩

theorem toOption_eq_some_iff {x : Except ε α} {a : α} : x.toOption = some a ↔ x = .ok a := by
  cases x with
  | error e => simp [Except.toOption]
  | ok b => simp [Except.toOption]

/-- What a run of two steps gives, errors aside. -/
theorem toOption_bind (x : Except ε α) (f : α → Except ε β) :
    (x >>= f).toOption = x.toOption.bind fun a => (f a).toOption := by
  cases x with
  | error e => rfl
  | ok a => rfl

theorem toOption_map (x : Except ε α) (f : α → β) : (x.map f).toOption = x.toOption.map f := by
  cases x with
  | error e => rfl
  | ok a => rfl

/-- An error with a property that can be decided by running. -/
theorem exists_error_of_decide {x : Except ε α} (p : ε → Prop) [DecidablePred p]
    (h : (match x with
      | .error e => decide (p e)
      | .ok _ => false) = true) : ∃ e, x = .error e ∧ p e := by
  cases x with
  | error e => exact ⟨e, rfl, of_decide_eq_true h⟩
  | ok a => cases h

/-- A result with a property that can be decided by running. -/
theorem exists_ok_of_decide {x : Except ε α} (p : α → Prop) [DecidablePred p]
    (h : (x.toOption.any fun a => decide (p a)) = true) : ∃ a, x = .ok a ∧ p a := by
  cases x with
  | error e => cases h
  | ok a => exact ⟨a, rfl, of_decide_eq_true h⟩

/-- A run over a list gives the results of its members, one for each and in order. -/
theorem mapM_eq_ok_iff {f : α → Except ε β} : ∀ {xs : List α} {ys : List β},
    xs.mapM f = .ok ys ↔ List.Forall₂ (fun x y => f x = .ok y) xs ys := by
  intro xs
  induction xs with
  | nil =>
    intro ys
    rw [List.forall₂_nil_left_iff, List.mapM_nil]
    exact ⟨fun h => by cases h; rfl, fun h => by rw [h]; rfl⟩
  | cons x xs ih =>
    intro ys
    rw [List.forall₂_cons_left_iff, List.mapM_cons]
    constructor
    · intro h
      obtain ⟨y, hy, h⟩ := bind_eq_ok.mp h
      obtain ⟨rest, hrest, h⟩ := bind_eq_ok.mp h
      cases h
      exact ⟨y, rest, hy, ih.mp hrest, rfl⟩
    · rintro ⟨y, rest, hy, hrest, rfl⟩
      rw [hy, ih.mpr hrest]
      rfl

theorem mapM_congr {f g : α → Except ε β} : ∀ {xs : List α}, (∀ x ∈ xs, f x = g x) →
    xs.mapM f = xs.mapM g := by
  intro xs
  induction xs with
  | nil => intro _; rfl
  | cons x xs ih =>
    intro h
    rw [List.mapM_cons, List.mapM_cons, h x (by simp),
      ih fun y hy => h y (List.mem_cons_of_mem _ hy)]

theorem foldlM_congr {f g : β → α → Except ε β} : ∀ {xs : List α} (init : β),
    (∀ x ∈ xs, ∀ acc, f acc x = g acc x) → xs.foldlM f init = xs.foldlM g init := by
  intro xs
  induction xs with
  | nil => intro init _; rfl
  | cons x xs ih =>
    intro init h
    rw [List.foldlM_cons, List.foldlM_cons, h x (by simp)]
    exact bind_congr fun acc => ih acc fun y hy => h y (List.mem_cons_of_mem _ hy)

/-- A run over a list fails as one of its members does. -/
theorem exists_of_mapM_error {f : α → Except ε β} {e : ε} : ∀ {xs : List α},
    xs.mapM f = .error e → ∃ x ∈ xs, f x = .error e := by
  intro xs
  induction xs with
  | nil => intro h; cases h
  | cons x xs ih =>
    intro h
    rw [List.mapM_cons] at h
    rcases bind_eq_error.mp h with hx | ⟨y, -, h⟩
    · exact ⟨x, by simp, hx⟩
    · rcases bind_eq_error.mp h with hrest | ⟨rest, -, h⟩
      · obtain ⟨a, ha, hfa⟩ := ih hrest
        exact ⟨a, List.mem_cons_of_mem _ ha, hfa⟩
      · cases h

/-- Of two lists that are related member by member, each member of the first has a partner. -/
theorem exists_right_of_forall₂ {R : α → β → Prop} {xs : List α} {ys : List β}
    (h : List.Forall₂ R xs ys) {x : α} (hx : x ∈ xs) : ∃ y ∈ ys, R x y := by
  induction h with
  | nil => cases hx
  | cons hab _ ih =>
    rcases List.mem_cons.mp hx with rfl | hx
    · exact ⟨_, by simp, hab⟩
    · obtain ⟨y, hy, hxy⟩ := ih hx
      exact ⟨y, List.mem_cons_of_mem _ hy, hxy⟩

theorem exists_left_of_forall₂ {R : α → β → Prop} {xs : List α} {ys : List β}
    (h : List.Forall₂ R xs ys) {y : β} (hy : y ∈ ys) : ∃ x ∈ xs, R x y :=
  exists_right_of_forall₂ (R := flip R) (List.Forall₂.flip h) hy

theorem map_eq_of_forall₂ {γ : Type} {R : α → β → Prop} {xs : List α} {ys : List β}
    (h : List.Forall₂ R xs ys) {f : α → γ} {g : β → γ} (hfg : ∀ x y, R x y → f x = g y) :
    xs.map f = ys.map g := by
  induction h with
  | nil => rfl
  | cons hab _ ih => rw [List.map_cons, List.map_cons, hfg _ _ hab, ih]

/-- A list made of pairs, where what is made depends on one of the two. -/
theorem flatMap_zipWith_of_forall₂ {γ δ : Type} {R : α → β → Prop} {xs : List α} {ys : List β}
    (h : List.Forall₂ R xs ys) {f : α → β → γ} {g : γ → List δ} {k : α → List δ}
    (hfg : ∀ x y, R x y → g (f x y) = k x) : (List.zipWith f xs ys).flatMap g = xs.flatMap k := by
  induction h with
  | nil => rfl
  | cons hxy _ ih =>
    rw [List.zipWith_cons_cons, List.flatMap_cons, List.flatMap_cons, hfg _ _ hxy, ih]

/-- One item for each member of a list. -/
theorem forall₂_flatMap {R : α → β → Prop} {f : α → List β} {xs : List α}
    (h : ∀ x ∈ xs, ∃ y, f x = [y] ∧ R x y) : List.Forall₂ R xs (xs.flatMap f) := by
  induction xs with
  | nil => exact .nil
  | cons x xs ih =>
    rw [List.forall_mem_cons] at h
    obtain ⟨⟨y, hy, hxy⟩, h⟩ := h
    rw [List.flatMap_cons, hy]
    exact .cons hxy (ih h)

/-- What a run over a list gives comes from the members of the list. -/
theorem exists_of_mem_mapM {f : α → Except ε β} {b : β} {xs : List α} {ys : List β}
    (h : xs.mapM f = .ok ys) (hb : b ∈ ys) : ∃ a ∈ xs, f a = .ok b :=
  exists_left_of_forall₂ (mapM_eq_ok_iff.mp h) hb

end TypedSheets

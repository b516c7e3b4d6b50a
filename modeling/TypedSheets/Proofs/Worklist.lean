import TypedSheets.Proofs.Resolution

/-!
# Working off the pending records

Records are resolved from a stack of pending names.  The next name is taken from the stack; if
it was taken before, or is no record, nothing happens, and otherwise the record gets its shape
and the names in it are pushed.  A record may name itself, or others that name it, so the stack
grows while it is worked off, and a name may come up any number of times.

The run ends all the same.  Each step leaves fewer records that were never taken, or as many of
those and a shorter stack.  The number of rounds that `Catalog.resolveRecords` counts down is
only a way to say so: it gives what the stack gives, whatever that is.

## Main definitions

* `Worklist`, `Worklist.Step`, `Worklist.Ends` — the stack, what a step does, and how a run ends.
* `Worklist.Run` — runs, with the records that they resolve.
* `Worklist.Sound` — the invariant: what was taken, if a record, has its shape.
* `Catalog.live` — the pending names that still matter.

## Main results

* `Worklist.wellFounded_step` — **no run goes on forever.**
* `Worklist.Run.names_eq` — **no record is resolved twice.**
* `Worklist.Run.resolveRecords_eq` — **the counted rounds give what the stack gives.**
-/

namespace TypedSheets

/-- A stack of pending names, the next one first, with the names taken from it so far and the
records resolved. -/
structure Worklist where
  done : List String
  resolved : List (String × Shape)
  pending : List String

namespace Worklist

/-- The stack before anything is resolved. -/
def start (pending : List String) : Worklist := ⟨[], [], pending⟩

section Steps

variable (scope : Scope) (naming : NameStyle)

/-- What a step does to the next name, and the record that it resolves, if any. -/
inductive Step : Worklist → Option String → Worklist → Prop
  /-- The name was taken before. -/
  | repeated {done : List String} {resolved : List (String × Shape)} {name : String}
      {rest : List String} (hdone : name ∈ done) :
      Step ⟨done, resolved, name :: rest⟩ none ⟨done, resolved, rest⟩
  /-- The name is no record. -/
  | skipped {done : List String} {resolved : List (String × Shape)} {name : String}
      {rest : List String} (hdone : name ∉ done) (hnone : scope.record? name = none) :
      Step ⟨done, resolved, name :: rest⟩ none ⟨name :: done, resolved, rest⟩
  /-- The record gets its shape, and what it names is pending, the last name first. -/
  | resolved {done : List String} {resolved : List (String × Shape)} {name : String}
      {rest : List String} {record : RecordDecl} {shape : Shape} (hdone : name ∉ done)
      (hrecord : scope.record? name = some record)
      (hshape : Catalog.recordShape scope naming record = .ok shape) :
      Step ⟨done, resolved, name :: rest⟩ (some name)
        ⟨name :: done, OrderedMap.insert resolved name shape, shape.recordNames.reverse ++ rest⟩

/-- How a run ends: with nothing pending, or at a record that cannot be resolved. -/
inductive Ends : Worklist → Except Fault (List (String × Shape)) → Prop
  | empty {done : List String} {resolved : List (String × Shape)} :
      Ends ⟨done, resolved, []⟩ (.ok resolved)
  | failed {done : List String} {resolved : List (String × Shape)} {name : String}
      {rest : List String} {record : RecordDecl} {fault : Fault} (hdone : name ∉ done)
      (hrecord : scope.record? name = some record)
      (hshape : Catalog.recordShape scope naming record = .error fault) :
      Ends ⟨done, resolved, name :: rest⟩ (.error fault)

/-- Steps one after another, with the records that they resolve. -/
inductive Run : Worklist → List String → Worklist → Prop
  | refl (list : Worklist) : Run list [] list
  | step {first next last : Worklist} {found : Option String} {names : List String}
      (hstep : Step scope naming first found next) (hrun : Run next names last) :
      Run first (found.toList ++ names) last

end Steps

variable {scope : Scope} {naming : NameStyle}

/-! ### Every run ends -/

/-- The records that were not taken yet. -/
def untaken (scope : Scope) (done : List String) : List String :=
  scope.recordLabels.filter (· ∉ done)

/-- Taking a further name leaves no more records. -/
theorem length_untaken_cons_le (scope : Scope) (name : String) (done : List String) :
    (untaken scope (name :: done)).length ≤ (untaken scope done).length := by
  refine (List.monotone_filter_right _ fun other hother => ?_).length_le
  simp only [List.mem_cons, not_or, decide_eq_true_eq] at hother ⊢
  exact hother.2

/-- Taking a record for the first time leaves fewer of them. -/
theorem length_untaken_cons_lt {name : String} {record : RecordDecl} {done : List String}
    (hdone : name ∉ done) (hrecord : scope.record? name = some record) :
    (untaken scope (name :: done)).length < (untaken scope done).length := by
  have hmem : name ∈ untaken scope done :=
    List.mem_filter.mpr ⟨Scope.mem_recordLabels hrecord, by simpa using hdone⟩
  have hfilter : untaken scope (name :: done) = (untaken scope done).filter (· ≠ name) := by
    rw [untaken, untaken, List.filter_filter]
    refine List.filter_congr fun other _ => ?_
    simp
  rw [hfilter]
  exact List.length_filter_lt_length_iff_exists.mpr ⟨name, hmem, by simp⟩

/-- What a step makes smaller: the records never taken, then the stack. -/
def rank (scope : Scope) (list : Worklist) : Nat × Nat :=
  ((untaken scope list.done).length, list.pending.length)

theorem Step.rank_lt {list next : Worklist} {found : Option String}
    (h : Step scope naming list found next) :
    Prod.Lex (· < ·) (· < ·) (next.rank scope) (list.rank scope) := by
  cases h with
  | repeated hdone => exact .right _ (Nat.lt_succ_self _)
  | skipped hdone hnone =>
    exact Prod.Lex.right' _ (length_untaken_cons_le ..) (Nat.lt_succ_self _)
  | resolved hdone hrecord hshape => exact .left _ _ (length_untaken_cons_lt hdone hrecord)

/-- **No run goes on forever.** -/
theorem wellFounded_step (scope : Scope) (naming : NameStyle) :
    WellFounded fun next list => ∃ found, Step scope naming list found next := by
  refine Subrelation.wf (r := InvImage (Prod.Lex (· < ·) (· < ·)) (rank scope)) ?_
    (InvImage.wf _ (Prod.lex Nat.lt_wfRel Nat.lt_wfRel).wf)
  rintro next list ⟨found, hstep⟩
  exact hstep.rank_lt

/-- A run that has not ended goes on. -/
theorem ends_or_step (scope : Scope) (naming : NameStyle) (list : Worklist) :
    (∃ result, list.Ends scope naming result) ∨
      ∃ found next, Step scope naming list found next := by
  obtain ⟨done, resolved, pending⟩ := list
  cases pending with
  | nil => exact Or.inl ⟨_, .empty⟩
  | cons name rest =>
    by_cases hdone : name ∈ done
    · exact Or.inr ⟨_, _, .repeated hdone⟩
    · cases hrecord : scope.record? name with
      | none => exact Or.inr ⟨_, _, .skipped hdone hrecord⟩
      | some record =>
        cases hshape : Catalog.recordShape scope naming record with
        | error fault => exact Or.inl ⟨_, .failed hdone hrecord hshape⟩
        | ok shape => exact Or.inr ⟨_, _, .resolved hdone hrecord hshape⟩

/-- From every stack there is a run to an end. -/
theorem exists_run (scope : Scope) (naming : NameStyle) (list : Worklist) :
    ∃ names last result, Run scope naming list names last ∧ last.Ends scope naming result := by
  induction list using (wellFounded_step scope naming).induction with
  | _ list ih =>
    rcases ends_or_step scope naming list with ⟨result, hends⟩ | ⟨found, next, hstep⟩
    · exact ⟨[], list, result, .refl list, hends⟩
    · obtain ⟨names, last, result, hrun, hends⟩ := ih next ⟨found, hstep⟩
      exact ⟨_, last, result, .step hstep hrun, hends⟩

/-! ### Each record is resolved once -/

/-- What holds of a stack while it is worked off: a record has a shape exactly when its name
was taken, and it has one only. -/
structure Sound (scope : Scope) (list : Worklist) : Prop where
  nodup : (list.resolved.map Prod.fst).Nodup
  records : ∀ entry ∈ list.resolved, ∃ record, scope.record? entry.1 = some record
  taken : ∀ name ∈ list.resolved.map Prod.fst, name ∈ list.done
  kept : ∀ name ∈ list.done, ∀ record, scope.record? name = some record →
    name ∈ list.resolved.map Prod.fst

theorem sound_start (scope : Scope) (pending : List String) : (start pending).Sound scope :=
  ⟨List.nodup_nil, by simp [start], by simp [start], by simp [start]⟩

/-- A name that was not taken has no shape. -/
theorem Sound.not_mem {list : Worklist} (h : list.Sound scope) {name : String}
    (hdone : name ∉ list.done) : name ∉ list.resolved.map Prod.fst :=
  fun hmem => hdone (h.taken name hmem)

/-- **One step** keeps a stack sound, and resolves the record that it says. -/
theorem Step.sound {list next : Worklist} {found : Option String}
    (hstep : Step scope naming list found next) (h : list.Sound scope) :
    next.Sound scope ∧
      next.resolved.map Prod.fst = list.resolved.map Prod.fst ++ found.toList := by
  cases hstep with
  | repeated hdone => exact ⟨⟨h.nodup, h.records, h.taken, h.kept⟩, by simp⟩
  | @skipped done resolved name rest hdone hnone =>
    refine ⟨⟨h.nodup, h.records, fun other hother => ?_, fun other hother record hrecord => ?_⟩,
      by simp⟩
    · exact List.mem_cons_of_mem _ (h.taken other hother)
    · rcases List.mem_cons.mp hother with rfl | hother
      · -- a name that was skipped stands for no record
        rw [hnone] at hrecord
        cases hrecord
      · exact h.kept other hother record hrecord
  | @resolved done resolved name rest record shape hdone hrecord hshape =>
    have hnew := h.not_mem hdone
    -- the record has no shape yet, so inserting one puts it last
    have hinsert := OrderedMap.insert_eq_append shape hnew
    have hnames : (OrderedMap.insert resolved name shape).map Prod.fst
        = resolved.map Prod.fst ++ [name] := by
      rw [hinsert, List.map_append]
      rfl
    refine ⟨⟨?_, fun entry hentry => ?_, fun other hother => ?_,
      fun other hother record' hother' => ?_⟩, hnames⟩
    · rw [hnames, List.nodup_append]
      refine ⟨h.nodup, by simp, ?_⟩
      rintro a ha b hb rfl
      exact hnew (List.mem_singleton.mp hb ▸ ha)
    · dsimp only at hentry
      rw [hinsert] at hentry
      rcases List.mem_append.mp hentry with hentry | hentry
      · exact h.records entry hentry
      · obtain rfl := List.mem_singleton.mp hentry
        exact ⟨record, hrecord⟩
    · dsimp only at hother
      rw [hnames] at hother
      rcases List.mem_append.mp hother with hother | hother
      · exact List.mem_cons_of_mem _ (h.taken other hother)
      · exact List.mem_cons.mpr (Or.inl (List.mem_singleton.mp hother))
    · rw [hnames]
      rcases List.mem_cons.mp hother with rfl | hother
      · exact List.mem_append_right _ (List.mem_singleton.mpr rfl)
      · exact List.mem_append_left _ (h.kept other hother record' hother')

/-- **A run** keeps a stack sound, and resolves the records that it says, in order. -/
theorem Run.sound {list last : Worklist} {names : List String}
    (hrun : Run scope naming list names last) (h : list.Sound scope) :
    last.Sound scope ∧ last.resolved.map Prod.fst = list.resolved.map Prod.fst ++ names := by
  induction hrun with
  | refl list => exact ⟨h, by simp⟩
  | step hstep _ ih =>
    obtain ⟨hnext, hfound⟩ := hstep.sound h
    obtain ⟨hlast, hnames⟩ := ih hnext
    exact ⟨hlast, by rw [hnames, hfound, List.append_assoc]⟩

/-- **No record is resolved twice**: what a run resolves are different records of the scope, and
they are those that have shapes in the end. -/
theorem Run.names_eq {pending names : List String} {last : Worklist}
    (hrun : Run scope naming (start pending) names last) :
    last.resolved.map Prod.fst = names ∧ names.Nodup ∧
      ∀ name ∈ names, ∃ record, scope.record? name = some record := by
  obtain ⟨hsound, hnames⟩ := hrun.sound (sound_start scope pending)
  rw [start, List.map_nil, List.nil_append] at hnames
  refine ⟨hnames, hnames ▸ hsound.nodup, fun name hname => ?_⟩
  rw [← hnames] at hname
  obtain ⟨entry, hentry, rfl⟩ := List.mem_map.mp hname
  exact hsound.records entry hentry

end Worklist

/-! ### Counted rounds -/

namespace Catalog

variable {scope : Scope} {naming : NameStyle} {resolved : List (String × Shape)}

/-- The pending names that still matter: those of records without a shape. -/
def live (scope : Scope) (resolved : List (String × Shape)) (pending : List String) : List String :=
  pending.filter fun name => !OrderedMap.contains resolved name && (scope.record? name).isSome

/-- The next record is the first that matters. -/
theorem nextRecord?_eq_head? (scope : Scope) (resolved : List (String × Shape)) :
    ∀ pending : List String, nextRecord? scope resolved pending
      = (live scope resolved pending).head?.bind fun name =>
          (scope.record? name).map fun record => (name, record) := by
  intro pending
  induction pending with
  | nil => rfl
  | cons name rest ih =>
    rw [nextRecord?] at ih ⊢
    rw [List.findSome?_cons, live, List.filter_cons]
    -- names that have a shape or stand for no record are passed over
    by_cases hheld : OrderedMap.contains resolved name = true
    · rw [if_pos hheld, if_neg (by simp [hheld])]
      exact ih
    · rw [if_neg hheld]
      cases hrecord : scope.record? name with
      | none =>
        rw [if_neg (by simp)]
        exact ih
      | some record => simp [hheld, hrecord]

theorem live_append (scope : Scope) (resolved : List (String × Shape))
    (names pending : List String) :
    live scope resolved (names ++ pending)
      = live scope resolved names ++ live scope resolved pending :=
  List.filter_append ..

/-- A name that was resolved, or is no record, does not matter. -/
theorem live_cons_of_idle {name : String}
    (hidle : ∀ record, scope.record? name = some record → name ∈ resolved.map Prod.fst)
    (pending : List String) :
    live scope resolved (name :: pending) = live scope resolved pending := by
  rw [live, List.filter_cons_of_neg]
  · rfl
  · intro hlive
    rw [Bool.and_eq_true, Option.isSome_iff_exists] at hlive
    obtain ⟨hnew, record, hrecord⟩ := hlive
    rw [OrderedMap.contains_iff.mpr (hidle record hrecord)] at hnew
    cases hnew

/-- When a record gets its shape, its name no longer matters. -/
theorem live_snoc (scope : Scope) (resolved : List (String × Shape)) (entry : String × Shape)
    (pending : List String) :
    live scope (resolved ++ [entry]) pending
      = (live scope resolved pending).filter fun name => !(entry.1 == name) := by
  rw [live, live, List.filter_filter]
  refine List.filter_congr fun name _ => ?_
  rw [OrderedMap.contains, OrderedMap.contains, List.any_append, List.any_cons, List.any_nil,
    Bool.or_false, Bool.not_or, Bool.and_comm (!(entry.1 == name)), Bool.and_assoc, Bool.and_assoc,
    Bool.and_comm (!(entry.1 == name))]

/-- What the rounds give depends on the names that matter only. -/
theorem resolveRecords_congr : ∀ (rounds : Nat) {resolved : List (String × Shape)}
    {pending pending' : List String}, live scope resolved pending = live scope resolved pending' →
      resolveRecords scope naming rounds resolved pending
        = resolveRecords scope naming rounds resolved pending' := by
  intro rounds
  induction rounds with
  | zero => intro resolved pending pending' _; rfl
  | succ rounds ih =>
    intro resolved pending pending' hlive
    have hnext : nextRecord? scope resolved pending = nextRecord? scope resolved pending' := by
      rw [nextRecord?_eq_head?, nextRecord?_eq_head?, hlive]
    rw [resolveRecords, resolveRecords, hnext]
    split
    · rfl
    · next name record _ =>
      refine bind_congr fun shape => ih ?_
      -- the names of the new shape are the same on both sides
      rw [live_append, live_append, live_snoc _ _ _ pending, live_snoc _ _ _ pending', hlive]

/-- A round resolves the first name, if it is a record without a shape. -/
theorem resolveRecords_cons {name : String} {record : RecordDecl}
    (hnew : name ∉ resolved.map Prod.fst) (hrecord : scope.record? name = some record)
    (rounds : Nat) (rest : List String) :
    resolveRecords scope naming (rounds + 1) resolved (name :: rest)
      = (recordShape scope naming record).bind fun shape =>
          resolveRecords scope naming rounds (resolved ++ [(name, shape)])
            (shape.recordNames.reverse ++ rest) := by
  have hnext : nextRecord? scope resolved (name :: rest) = some (name, record) := by
    have hheld : OrderedMap.contains resolved name = false := by
      rw [Bool.eq_false_iff]
      exact fun hheld => hnew (OrderedMap.contains_iff.mp hheld)
    rw [nextRecord?, List.findSome?_cons]
    simp [hheld, hrecord]
  rw [resolveRecords, hnext]
  dsimp only
  cases recordShape scope naming record with
  | error fault => rfl
  | ok shape =>
    -- the name itself stays pending, but no longer matters
    refine resolveRecords_congr rounds ?_
    rw [live_append, live_append, live_cons_of_idle fun _ _ => ?_]
    rw [List.map_append]
    exact List.mem_append_right _ (List.mem_singleton.mpr rfl)

end Catalog

namespace Worklist

variable {scope : Scope} {naming : NameStyle}

/-- **The counted rounds give what the stack gives**, once they are as many as the records that
have no shape yet. -/
theorem Run.resolveRecords_eq {list last : Worklist} {names : List String}
    {result : Except Fault (List (String × Shape))} (hrun : Run scope naming list names last)
    (hends : last.Ends scope naming result) :
    ∀ {rounds : Nat}, list.Sound scope → scope.recordCount ≤ list.resolved.length + rounds →
      Catalog.resolveRecords scope naming rounds list.resolved list.pending = result := by
  -- a record without a shape leaves a round for it
  have hround : ∀ {list : Worklist} {name : String} {record : RecordDecl} {rounds : Nat},
      list.Sound scope → name ∉ list.done → scope.record? name = some record →
        scope.recordCount ≤ list.resolved.length + rounds → ∃ rest, rounds = rest + 1 := by
    intro list name record rounds hsound hdone hrecord hcount
    have hlt := Catalog.length_lt_recordCount hsound.nodup hsound.records (hsound.not_mem hdone)
      hrecord
    exact ⟨rounds - 1, by omega⟩
  induction hrun with
  | refl list =>
    intro rounds hsound hcount
    cases hends with
    | empty => cases rounds <;> rfl
    | failed hdone hrecord hshape =>
      obtain ⟨rounds, rfl⟩ := hround hsound hdone hrecord hcount
      rw [Catalog.resolveRecords_cons (hsound.not_mem hdone) hrecord, hshape]
      rfl
  | step hstep _ ih =>
    intro rounds hsound hcount
    have hnext := (hstep.sound hsound).1
    cases hstep with
    | repeated hdone =>
      rw [Catalog.resolveRecords_congr rounds
        (Catalog.live_cons_of_idle (fun record => hsound.kept _ hdone record) _)]
      exact ih hends hnext hcount
    | skipped hdone hnone =>
      rw [Catalog.resolveRecords_congr rounds
        (Catalog.live_cons_of_idle (fun record hrecord => by simp [hnone] at hrecord) _)]
      exact ih hends hnext hcount
    | @resolved done resolved name rest record shape hdone hrecord hshape =>
      obtain ⟨rounds, rfl⟩ := hround hsound hdone hrecord hcount
      have hnew := hsound.not_mem hdone
      have hinsert := OrderedMap.insert_eq_append shape hnew
      rw [Catalog.resolveRecords_cons hnew hrecord, hshape]
      have hcount' :
          scope.recordCount ≤ (OrderedMap.insert resolved name shape).length + rounds := by
        have hcount : scope.recordCount ≤ resolved.length + (rounds + 1) := hcount
        rw [hinsert, List.length_append, List.length_singleton]
        omega
      have hrest := ih hends hnext hcount'
      rw [hinsert] at hrest
      exact hrest

end Worklist
end TypedSheets

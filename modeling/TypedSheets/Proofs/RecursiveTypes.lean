import TypedSheets.Data.Literal
import TypedSheets.Proofs.Worklist

/-!
# Recursive types do not loop

Records may name themselves and each other.  Three recursions go over them: records are resolved
from a stack of names, the zero of a type is made from the zeros of the fields of its record, and
a JSON tree is read against a type.  None of them gets smaller with the type alone, since a name
leads to a shape of any size.

The zero of a record leaves out the records in it, so it would only loop through a reference to
a record.  But references are made for the fields of data rows, and no type names the data rows:
the shape of a record has none.  A JSON tree is taken apart, or the type is while the tree stays.

To say that such a recursion ends, it is given by its body, over a function for the calls, and
by the calls that the body makes.  Where no call leads on forever, the body has one solution.

## Main definitions

* `Recursion`, `Recursion.Ends`, `Recursion.Defines` — recursions, calls that end, and the
  function that is defined.
* `ResolvedType.hasReference` — whether a type has a reference in it.
* `Catalog.zeroRecursion`, `Catalog.jsonRecursion` — zeros, and values of JSON trees.

## Main results

* `Recursion.defines_of_ends` — **a recursion that ends defines one function.**
* `Catalog.MadeIn.plain` — **shapes of records have no references.**
* `Catalog.Plain.defines_zero` — the zeros of types and of shapes.
* `Catalog.not_ends_of_reference` — a record that refers to itself would have no zero.
* `Catalog.defines_ofJson` — the values of JSON trees.
* `Catalog.recursiveTypes_end` — **recursive types do not loop.**
-/

namespace TypedSheets

/-! ### Recursions -/

/-- A recursion: what a call gives, over a function for the calls that it makes. -/
structure Recursion (α β : Type) where
  body : (α → β) → α → β
  /-- The calls that a call may make. -/
  Calls : α → α → Prop
  /-- The body looks at no other calls. -/
  congr : ∀ f g call, (∀ inner, Calls call inner → f inner = g inner) → body f call = body g call

namespace Recursion

variable {α β : Type} {recursion : Recursion α β}

/-- That a call ends: no chain of calls from it goes on forever. -/
def Ends (recursion : Recursion α β) (call : α) : Prop :=
  Acc (fun inner outer => recursion.Calls outer inner) call

/-- That a recursion defines a function: every call ends, and the function is the one that gives
what the body does. -/
structure Defines (recursion : Recursion α β) (f : α → β) : Prop where
  ends : ∀ call, recursion.Ends call
  eq_body_iff : ∀ g, (∀ call, g call = recursion.body g call) ↔ g = f

/-- **A recursion that ends defines one function.** -/
theorem defines_of_ends {f : α → β} (hends : ∀ call, recursion.Ends call)
    (hf : ∀ call, f call = recursion.body f call) : recursion.Defines f := by
  refine ⟨hends, fun g => ⟨fun hg => ?_, fun hg => hg ▸ hf⟩⟩
  funext call
  induction hends call with
  | intro call _ ih => rw [hg, hf, recursion.congr g f call ih]

/-- Calls end where each of them makes something smaller. -/
theorem ends_of_lex (first second : α → Nat)
    (h : ∀ outer inner, recursion.Calls outer inner →
      Prod.Lex (· < ·) (· < ·) (first inner, second inner) (first outer, second outer)) (call : α) :
    recursion.Ends call := by
  have hwf : WellFounded fun inner outer => recursion.Calls outer inner :=
    Subrelation.wf (fun {inner outer} hcalls => h outer inner hcalls)
      (InvImage.wf (fun call => (first call, second call)) (Prod.lex Nat.lt_wfRel Nat.lt_wfRel).wf)
  exact hwf.apply call

end Recursion

/-! ### Types without references -/

namespace ResolvedType

/-- Whether a type has a reference in it. -/
def hasReference : ResolvedType → Bool
  | reference _ _ => true
  | list element => element.hasReference
  | nullable inner => inner.hasReference
  | scalar _ | enum _ | record _ => false

/-- Whether a type is a record, seen from outside. -/
def isRecord : ResolvedType → Bool
  | record _ => true
  | _ => false

end ResolvedType

/-- A type that is resolved has no reference in it. -/
theorem Scope.hasReference_of_resolve {scope : Scope} {cell : Cell} :
    ∀ {type : WrittenType} {resolved : ResolvedType},
      scope.resolve cell type = .ok resolved → resolved.hasReference = false := by
  intro type
  induction type with
  | scalar s => intro resolved h; cases h; rfl
  | list element ih =>
    intro resolved h
    obtain ⟨inner, hinner, rfl⟩ := map_eq_ok.mp h
    have hplain := ih hinner
    exact hplain
  | nullable inner ih =>
    intro resolved h
    obtain ⟨inner', hinner, rfl⟩ := map_eq_ok.mp h
    have hplain := ih hinner
    exact hplain
  | named name =>
    intro resolved h
    rw [resolve_named] at h
    split at h
    · cases h; rfl
    · cases h; rfl
    · cases h

namespace Catalog

variable {catalog : Catalog}

/-- That the shapes of records have no references. -/
def Plain (catalog : Catalog) : Prop :=
  ∀ entry ∈ catalog.records, ∀ field ∈ entry.2.fields, field.type.hasReference = false

/-- **Shapes of records have no references.** -/
theorem MadeIn.plain {schema : Schema} {others : List Schema} {scope : Scope}
    (h : catalog.MadeIn schema others scope) : catalog.Plain := by
  intro entry hentry field hfield
  obtain ⟨record, -, hshape⟩ := h.resolving.shapes entry hentry
  obtain ⟨decl, -, hdecl⟩ := exists_left_of_forall₂ (recordShape_eq_ok_iff.mp hshape) hfield
  exact Scope.hasReference_of_resolve hdecl.type

theorem Plain.of_record? (h : catalog.Plain) {name : String} {shape : Shape}
    (hshape : catalog.record? name = some shape) {field : Field} (hfield : field ∈ shape.fields) :
    field.type.hasReference = false :=
  h _ (OrderedMap.mem_of_get? hshape) field hfield

/-! ### Zeros -/

/-- What a zero is made of: a type, or the fields of a shape. -/
inductive ZeroCall where
  | type (type : ResolvedType)
  | shape (shape : Shape)

/-- The zeros that a zero is made from: that of the shape of a record, of the key of a
reference, and of each field that is no record. -/
inductive ZeroCall.Calls (catalog : Catalog) : ZeroCall → ZeroCall → Prop
  | record {name : String} {shape : Shape} (hshape : catalog.record? name = some shape) :
      Calls catalog (.type (.record name)) (.shape shape)
  | reference {key : ResolvedType} {target : String} :
      Calls catalog (.type (.reference key target)) (.type key)
  | field {shape : Shape} {field : Field} (hfield : field ∈ shape.fields)
      (hrecord : field.type.isRecord = false) : Calls catalog (.shape shape) (.type field.type)

/-- One level of a zero. -/
def zeroBody (catalog : Catalog) (zeros : ZeroCall → Value) : ZeroCall → Value
  | .type (.record name) =>
    ((catalog.record? name).map fun shape => zeros (.shape shape)).getD .null
  | .type (.reference key _) => zeros (.type key)
  | .type (.scalar s) => s.zero
  | .type (.enum name) => catalog.enumZero name
  | .type (.list _) => .list []
  | .type (.nullable _) => .null
  | .shape shape => .record (OrderedMap.ofList (shape.fields.map fun field =>
      (field.emitted, if field.type.isRecord then .null else zeros (.type field.type))))

theorem zeroBody_congr (catalog : Catalog) (f g : ZeroCall → Value) (call : ZeroCall)
    (h : ∀ inner, ZeroCall.Calls catalog call inner → f inner = g inner) :
    zeroBody catalog f call = zeroBody catalog g call := by
  cases call with
  | type type =>
    cases type with
    | record name =>
      rw [zeroBody, zeroBody]
      cases hshape : catalog.record? name with
      | none => rfl
      | some shape => exact h _ (.record hshape)
    | reference key target => exact h _ .reference
    | scalar s => rfl
    | enum name => rfl
    | list element => rfl
    | nullable inner => rfl
  | shape shape =>
    rw [zeroBody, zeroBody]
    congr 2
    -- a field that is a record starts as null and asks for no further zero
    refine List.map_congr_left fun field hfield => ?_
    split
    · rfl
    · next hrecord => rw [h _ (.field hfield (by simpa using hrecord))]

/-- Zeros as a recursion. -/
def zeroRecursion (catalog : Catalog) : Recursion ZeroCall Value :=
  ⟨zeroBody catalog, ZeroCall.Calls catalog, zeroBody_congr catalog⟩

/-- The zeros of a catalog. -/
def zeroOf (catalog : Catalog) : ZeroCall → Value
  | .type type => catalog.zero type
  | .shape shape => catalog.newRow shape

/-- Without references, no record leads to another one. -/
theorem ends_of_hasReference_eq_false {type : ResolvedType} (hplain : type.hasReference = false)
    (hrecord : type.isRecord = false) : catalog.zeroRecursion.Ends (.type type) := by
  refine Acc.intro _ fun inner hinner => ?_
  cases hinner with
  | record _ => cases hrecord
  | reference => cases hplain

/-- The zero of any type ends. -/
theorem Plain.ends_type (h : catalog.Plain) (type : ResolvedType) :
    catalog.zeroRecursion.Ends (.type type) := by
  induction type with
  | reference key target ih =>
    refine Acc.intro _ fun inner hinner => ?_
    cases hinner
    exact ih
  | record name =>
    refine Acc.intro _ fun inner hinner => ?_
    cases hinner with
    | record hshape =>
      -- a record asks for its fields that are no records, and these ask for nothing
      refine Acc.intro _ fun field hfield => ?_
      cases hfield with
      | field hmem hrecord => exact ends_of_hasReference_eq_false (h.of_record? hshape hmem) hrecord
  | scalar s => exact Acc.intro _ fun inner hinner => nomatch hinner
  | enum name => exact Acc.intro _ fun inner hinner => nomatch hinner
  | list element _ => exact Acc.intro _ fun inner hinner => nomatch hinner
  | nullable inner _ => exact Acc.intro _ fun inner hinner => nomatch hinner

theorem rowField_eq_ite (catalog : Catalog) (type : ResolvedType) :
    catalog.rowField type = if type.isRecord then .null else catalog.zero type := by
  cases type <;> rfl

/-- A field of a new row holds what one of a new record does, unless it is a reference. -/
theorem rowField_eq_blank {type : ResolvedType} (hplain : type.hasReference = false) :
    catalog.rowField type = catalog.blank type := by
  cases type with
  | reference key target => cases hplain
  | _ => rfl

/-- The zero of a record is a new row of its shape. -/
theorem Plain.zero_record (h : catalog.Plain) (name : String) :
    catalog.zero (.record name)
      = ((catalog.record? name).map fun shape => catalog.newRow shape).getD .null := by
  rw [zero.eq_def]
  dsimp only
  cases hshape : catalog.record? name with
  | none => rfl
  | some shape =>
    have hfields : shape.fields.map (fun field => (field.emitted, catalog.blank field.type))
        = shape.fields.map fun field => (field.emitted, catalog.rowField field.type) := by
      refine List.map_congr_left fun field hfield => ?_
      rw [rowField_eq_blank (h.of_record? hshape hfield)]
    exact congrArg (fun fields => Value.record (OrderedMap.ofList fields)) hfields

/-- **Zeros are defined by their recursion.** -/
theorem Plain.defines_zero (h : catalog.Plain) : catalog.zeroRecursion.Defines catalog.zeroOf := by
  refine Recursion.defines_of_ends ?_ ?_
  · intro call
    cases call with
    | type type => exact h.ends_type type
    | shape shape =>
      refine Acc.intro _ fun inner hinner => ?_
      cases hinner with
      | field _ _ => exact h.ends_type _
  · intro call
    cases call with
    | shape shape =>
      -- a new row is the zero of its shape
      show catalog.newRow shape = zeroBody catalog catalog.zeroOf (.shape shape)
      rw [newRow, zeroBody]
      congr 2
      refine List.map_congr_left fun field _ => ?_
      rw [rowField_eq_ite]
      rfl
    | type type =>
      cases type with
      | record name => exact h.zero_record name
      | _ => rfl

/-- A record that refers to itself would have no zero: this is what the shapes without references
are needed for. -/
theorem not_ends_of_reference {name target : String} {shape : Shape} {field : Field}
    (hshape : catalog.record? name = some shape) (hfield : field ∈ shape.fields)
    (htype : field.type = .reference (.record name) target) :
    ¬ catalog.zeroRecursion.Ends (.type (.record name)) := by
  -- the chain of calls comes back to the record, so it has no end
  have hloop : ∀ call, catalog.zeroRecursion.Ends call →
      call ≠ .type (.record name) ∧ call ≠ .shape shape ∧ call ≠ .type field.type := by
    intro call hends
    induction hends with
    | intro call _ ih =>
      refine ⟨?_, ?_, ?_⟩
      · rintro rfl
        exact (ih _ (.record hshape)).2.1 rfl
      · rintro rfl
        exact (ih _ (.field hfield (by rw [htype]; rfl))).2.2 rfl
      · rintro rfl
        refine (ih (.type (.record name)) ?_).1 rfl
        rw [htype]
        exact .reference
  exact fun hends => (hloop _ hends).1 rfl

/-! ### JSON trees -/

/-- The trees that are read for a tree: the same one against what a wrapper holds, and the items
and members of it. -/
inductive JsonCalls (catalog : Catalog) : ResolvedType × Json → ResolvedType × Json → Prop
  | nullable {inner : ResolvedType} {json : Json} :
      JsonCalls catalog (.nullable inner, json) (inner, json)
  | reference {key : ResolvedType} {target : String} {json : Json} :
      JsonCalls catalog (.reference key target, json) (key, json)
  | item {element : ResolvedType} {items : List Json} {item : Json} (hitem : item ∈ items) :
      JsonCalls catalog (.list element, .arr items) (element, item)
  | member {name : String} {shape : Shape} {field : Field} {members : List (String × Json)}
      {member : String × Json} (hshape : catalog.record? name = some shape)
      (hmember : member ∈ members) (hfield : catalog.field? shape member.1 = some field) :
      JsonCalls catalog (.record name, .obj members) (field.type, member.2)

/-- Fields with one member of an object set. -/
def setMember (catalog : Catalog) (values : ResolvedType × Json → Except Mismatch Value)
    (unknown : Mismatch) (shape : Shape) (fields : List (String × Value)) (member : String × Json) :
    Except Mismatch (List (String × Value)) :=
  (catalog.field? shape member.1).elim (.error unknown) fun field =>
    (values (field.type, member.2)).map fun value => OrderedMap.insert fields field.emitted value

/-- One level of the value of a JSON tree. -/
def jsonBody (catalog : Catalog) (values : ResolvedType × Json → Except Mismatch Value) :
    ResolvedType × Json → Except Mismatch Value
  | (type, .null) => ofNull type
  | (.nullable inner, json) => values (inner, json)
  | (.reference key _, json) => values (key, json)
  | (.list element, .arr items) => (items.mapM fun item => values (element, item)).map .list
  | (.record name, .obj members) =>
    let unknown := notOfType (.record name) (.obj members)
    (catalog.record? name).elim (.error unknown) fun shape =>
      (members.foldlM (setMember catalog values unknown shape)
        (catalog.zeroFields (.record name))).map .record
  | (type, json) => catalog.ofLeaf type json

theorem jsonBody_congr (catalog : Catalog) (f g : ResolvedType × Json → Except Mismatch Value)
    (call : ResolvedType × Json) (h : ∀ inner, JsonCalls catalog call inner → f inner = g inner) :
    jsonBody catalog f call = jsonBody catalog g call := by
  obtain ⟨type, json⟩ := call
  cases type with
  | nullable inner =>
    have hinner := h _ .nullable
    cases json with
    | null => rfl
    | _ => exact hinner
  | reference key target =>
    have hkey := h _ .reference
    cases json with
    | null => rfl
    | _ => exact hkey
  | list element =>
    cases json with
    | arr items =>
      rw [jsonBody, jsonBody, mapM_congr fun item hitem => h _ (.item hitem)]
    | _ => rfl
  | record name =>
    cases json with
    | obj members =>
      rw [jsonBody, jsonBody]
      cases hshape : catalog.record? name with
      | none => rfl
      | some shape =>
        dsimp only [Option.elim]
        -- each member is read by one call, against the type of its field
        rw [foldlM_congr]
        intro member hmember fields
        rw [setMember, setMember]
        cases hfield : catalog.field? shape member.1 with
        | none => rfl
        | some field =>
          dsimp only [Option.elim]
          rw [h _ (.member hshape hmember hfield)]
    | _ => rfl
  | scalar s => cases json <;> rfl
  | enum name => cases json <;> rfl

/-- Reading JSON trees as a recursion. -/
def jsonRecursion (catalog : Catalog) :
    Recursion (ResolvedType × Json) (Except Mismatch Value) :=
  ⟨jsonBody catalog, JsonCalls catalog, jsonBody_congr catalog⟩

/-- The tree gets smaller, or the type does while the tree stays. -/
theorem jsonRecursion_ends (catalog : Catalog) (call : ResolvedType × Json) :
    catalog.jsonRecursion.Ends call := by
  refine Recursion.ends_of_lex (fun call => sizeOf call.2) (fun call => sizeOf call.1) ?_ call
  intro outer inner hcalls
  cases hcalls with
  | nullable => exact .right _ (by simp)
  | reference => exact .right _ (by simp; omega)
  | item hitem =>
    refine .left _ _ ?_
    have hlt := List.sizeOf_lt_of_mem hitem
    simp only [Json.arr.sizeOf_spec]
    omega
  | @member name shape field members member hshape hmember hfield =>
    refine .left _ _ ?_
    have hlt := List.sizeOf_lt_of_mem hmember
    obtain ⟨key, json⟩ := member
    simp only [Json.obj.sizeOf_spec, Prod.mk.sizeOf_spec] at hlt ⊢
    omega

/-! What is read item by item, as one run over the items. -/

theorem ofItems_eq_mapM (catalog : Catalog) (items : List Json) (element : ResolvedType) :
    ofItems catalog items element = items.mapM fun item => catalog.ofJson item element := by
  induction items with
  | nil => rfl
  | cons item items ih => rw [ofItems, ih, List.mapM_cons]

theorem ofMembers_eq_foldlM (catalog : Catalog) (unknown : Mismatch) (shape : Shape) :
    ∀ (members : List (String × Json)) (fields : List (String × Value)),
      ofMembers catalog unknown shape members fields
        = members.foldlM
            (setMember catalog (fun call => catalog.ofJson call.2 call.1) unknown shape)
            fields := by
  intro members
  induction members with
  | nil => intro fields; rfl
  | cons member members ih =>
    intro fields
    obtain ⟨name, item⟩ := member
    rw [ofMembers, List.foldlM_cons, setMember]
    cases catalog.field? shape name with
    | none => rfl
    | some field =>
      dsimp only [Option.elim]
      cases catalog.ofJson item field.type with
      | error e => rfl
      | ok value => exact ih _

/-- **Values of JSON trees are defined by their recursion**, whatever the catalog. -/
theorem defines_ofJson (catalog : Catalog) :
    catalog.jsonRecursion.Defines fun call => catalog.ofJson call.2 call.1 := by
  refine Recursion.defines_of_ends (jsonRecursion_ends catalog) ?_
  rintro ⟨type, json⟩
  show catalog.ofJson json type
    = jsonBody catalog (fun call => catalog.ofJson call.2 call.1) (type, json)
  cases type with
  | nullable inner => cases json <;> rfl
  | reference key target => cases json <;> rfl
  | list element =>
    cases json with
    | arr items =>
      -- items are read by a loop of their own, members by a fold
      rw [jsonBody, ofJson, ← ofItems_eq_mapM]
      rfl
    | _ => rfl
  | record name =>
    cases json with
    | obj members =>
      rw [jsonBody, ofJson]
      dsimp only [ResolvedType.bare]
      cases catalog.record? name with
      | none => rfl
      | some shape =>
        dsimp only [Option.elim]
        rw [ofMembers_eq_foldlM]
    | _ => rfl
  | scalar s => cases json <;> rfl
  | enum name => cases json <;> rfl

/-! ### Catalogs of sheets -/

/-- **Recursive types do not loop.**  Working off pending records ends from every stack, and from
that of a sheet it gives what the catalog holds, with no record resolved twice.  The shapes of
records in a catalog have no references, so the zeros of all types and shapes end, and are those
of the catalog; and every JSON tree is read against every type in a recursion that ends. -/
theorem recursiveTypes_end (schema : Schema) (others : List Schema) (naming : NameStyle) :
    (∀ scope, WellFounded fun next list => ∃ found, Worklist.Step scope naming list found next) ∧
    (∀ scope entity constants, Scope.ofSchemas schema others naming = .ok scope →
      entityShape scope naming schema = .ok entity →
      constantShape scope naming schema = .ok constants →
      let pending := (pendingRecords schema entity constants).reverse
      (∃ names last, Worklist.Run scope naming (.start pending) names last ∧
        last.Ends scope naming (resolveRecords scope naming scope.recordCount [] pending)) ∧
      ∀ names last, Worklist.Run scope naming (.start pending) names last →
        names.Nodup ∧ last.resolved.map Prod.fst = names ∧
          ∀ name ∈ names, ∃ record, schema.sees? others name = some (.record record)) ∧
    (∀ catalog, ofSchemas schema others naming = .ok catalog →
      (∀ entry ∈ catalog.records, ∀ field ∈ entry.2.fields, field.type.hasReference = false) ∧
      catalog.zeroRecursion.Defines catalog.zeroOf) ∧
    ∀ catalog : Catalog,
      catalog.jsonRecursion.Defines fun call => catalog.ofJson call.2 call.1 := by
  refine ⟨fun scope => Worklist.wellFounded_step scope naming, ?_, ?_, defines_ofJson⟩
  · intro scope entity constants hscope _ _ pending
    constructor
    · -- some run ends, and the rounds of the program suffice to follow it
      obtain ⟨names, last, result, hrun, hends⟩ :=
        Worklist.exists_run scope naming (.start pending)
      have hresult : resolveRecords scope naming scope.recordCount [] pending = result :=
        hrun.resolveRecords_eq hends (Worklist.sound_start scope pending) (by simp [Worklist.start])
      exact ⟨names, last, hrun, hresult ▸ hends⟩
    · intro names last hrun
      obtain ⟨hnames, hnodup, hrecords⟩ := hrun.names_eq
      refine ⟨hnodup, hnames, fun name hname => ?_⟩
      obtain ⟨record, hrecord⟩ := hrecords name hname
      exact ⟨record, (Scope.record?_eq_some_iff hscope).mp hrecord⟩
  · intro catalog hcatalog
    obtain ⟨-, scope, hmade⟩ := madeIn_of_ofSchemas hcatalog
    exact ⟨hmade.plain, hmade.plain.defines_zero⟩

end Catalog

/-! ### Records that name each other -/

namespace Guild

def naming : NameStyle := ⟨.pascal, {}⟩

/-- A record of another sheet that lists the records that hold it. -/
def squads : Schema := ⟨"Squads", [
  ⟨some "Squad", ["Global"], none, ⟨0, 0⟩, .record ⟨true, [
    ⟨"Members", .list (.named "Member"), false, none, ⟨2, 0⟩, ⟨2, 1⟩⟩]⟩⟩]⟩

/-- A sheet with a record that names itself, as it is and as a nullable field, and a reference to
it in the data rows. -/
def schema : Schema := ⟨"Guild", [
  ⟨some "Member", [], none, ⟨0, 0⟩, .record ⟨false, [
    ⟨"Twin", .named "Member", false, none, ⟨2, 0⟩, ⟨2, 1⟩⟩,
    ⟨"Mentor", .nullable (.named "Member"), false, none, ⟨3, 0⟩, ⟨3, 1⟩⟩,
    ⟨"Squad", .named "Squad", false, none, ⟨4, 0⟩, ⟨4, 1⟩⟩]⟩⟩,
  ⟨none, [], none, ⟨5, 0⟩, .design ⟨[], [
    ⟨"Leader", .named "Member", true, some "Guild", false, none, ⟨7, 0⟩, ⟨7, 1⟩⟩]⟩⟩]⟩

def catalog : Catalog := ⟨naming, [], [
  ("Member", ⟨[⟨"Twin", "Twin", .record "Member", false⟩,
    ⟨"Mentor", "Mentor", .nullable (.record "Member"), false⟩,
    ⟨"Squad", "Squad", .record "Squad", false⟩]⟩),
  ("Squad", ⟨[⟨"Members", "Members", .list (.record "Member"), false⟩]⟩)], [],
  some ⟨[⟨"Leader", "Leader", .reference (.record "Member") "Guild", false⟩]⟩, ⟨[]⟩⟩

theorem ofSchemas_schema : Catalog.ofSchemas schema [squads] naming = .ok catalog := rfl

/-- The zero of the reference is made, and the stack is worked off. -/
theorem recursiveTypes_end_guild :
    Catalog.ofSchemas schema [squads] naming = .ok catalog ∧
    catalog.zeroRecursion.Ends (.type (.reference (.record "Member") "Guild")) ∧
    ∃ scope names last, Worklist.Run scope naming (.start ["Member", "Member"]) names last ∧
      last.Ends scope naming (.ok catalog.records) ∧ names.Nodup := by
  obtain ⟨-, hruns, hcatalogs, -⟩ := Catalog.recursiveTypes_end schema [squads] naming
  obtain ⟨⟨names, last, hrun, hends⟩, honce⟩ := hruns _ _ _ rfl rfl rfl
  exact ⟨ofSchemas_schema, (hcatalogs catalog ofSchemas_schema).2.ends _, _, names, last, hrun,
    hends, (honce names last hrun).1⟩

end Guild
end TypedSheets

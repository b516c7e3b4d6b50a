import TypedSheets.Proofs.AgreeingCatalogs
import TypedSheets.Proofs.GlobalRecords

/-!
# The order of sheets

A sheet is compiled among the schemas of all sheets, of which it sees the global types.  Where
several sheets have a global type of one name, the first of them is seen; and where the names
of several types are generated alike, the generated name stands for the first.  So the order of
the sheets shows where sheets compete for a name, and nowhere else: a rearrangement that keeps
competing sheets in order changes nothing, neither the output nor the error.

What is seen does not depend on the order; hence the two scopes hold the same declarations, in
different order, and have the same aliases.  From there on scopes and catalogs are only asked
by name.

## Main definitions

* `Schema.shared` — the global types of a sheet by name.
* `Schema.offers?` — the name that a sheet offers for a generated name.
* `Schema.Compete`, `Schema.KeepsOrder` — **sheets that compete in the scope of a sheet**, and
  rearrangements that keep them in order.
* `Scope.Agrees` — scopes that answer alike.

## Main results

* `findSome?_perm` — the first find in a list and in a rearrangement of it.
* `Schema.sees?_perm`, `Scope.agrees_perm` — **what a sheet sees, and its scope.**
* `Catalog.ofSchemas_perm` — the catalog of a sheet.
* `Settings.compileSheet_perm` — **compiled sheets.**
-/

namespace TypedSheets

/-! ### First finds -/

section Finds

variable {α β γ : Type}

/-- Of two elements that occur once, only one can come before the other. -/
theorem not_sublist_swap {a b : α} : ∀ {list : List α}, list.Nodup → [a, b].Sublist list →
    [b, a].Sublist list → False
  | [], _, hab, _ => by cases hab
  | c :: list, hnodup, hab, hba => by
    rw [List.nodup_cons] at hnodup
    cases hab with
    | cons _ hab =>
      cases hba with
      | cons _ hba => exact not_sublist_swap hnodup.2 hab hba
      | cons_cons _ hba => exact hnodup.1 (hab.subset (by simp))
    | cons_cons _ hab =>
      cases hba with
      | cons _ hba => exact hnodup.1 (hba.subset (by simp))
      | cons_cons _ hba => exact hnodup.1 (hba.subset (by simp))

/-- **The first find in a rearranged list** is the same, if elements with different finds keep
their order. -/
theorem findSome?_perm {f : α → Option β} {list list' : List α} (hperm : list.Perm list')
    (hnodup : list.Nodup)
    (hkeep : ∀ a b x y, f a = some x → f b = some y → x ≠ y → [a, b].Sublist list →
      [a, b].Sublist list') :
    list'.findSome? f = list.findSome? f := by
  cases hold : list.findSome? f with
  | none =>
    rw [List.findSome?_eq_none_iff] at hold ⊢
    exact fun a ha => hold a (hperm.mem_iff.mpr ha)
  | some x =>
    cases hnew : list'.findSome? f with
    | none =>
      obtain ⟨a, ha, hfind⟩ := List.exists_of_findSome?_eq_some hold
      rw [List.findSome?_eq_none_iff.mp hnew a (hperm.mem_iff.mp ha)] at hfind
      cases hfind
    | some y =>
      by_contra hne
      obtain ⟨before, a, after, rfl, ha, hbefore⟩ := List.findSome?_eq_some_iff.mp hold
      obtain ⟨before', b, after', rfl, hb, hbefore'⟩ := List.findSome?_eq_some_iff.mp hnew
      have hxy : x ≠ y := fun h => hne (by rw [h])
      have hab : a ≠ b := by
        rintro rfl
        exact hxy (Option.some.inj (ha.symm.trans hb))
      -- the first find of one list is a later find of the other
      have hlater : b ∈ after := by
        have hmem := hperm.mem_iff.mpr (List.mem_append_right before' (List.mem_cons_self ..))
        rcases List.mem_append.mp hmem with hmem | hmem
        · rw [hbefore b hmem] at hb
          cases hb
        · exact (List.mem_cons.mp hmem).resolve_left (Ne.symm hab)
      have hlater' : a ∈ after' := by
        have hmem := hperm.mem_iff.mp (List.mem_append_right before (List.mem_cons_self ..))
        rcases List.mem_append.mp hmem with hmem | hmem
        · rw [hbefore' a hmem] at ha
          cases ha
        · exact (List.mem_cons.mp hmem).resolve_left hab
      have hfirst : [a, b].Sublist (before ++ a :: after) :=
        ((List.singleton_sublist.mpr hlater).cons_cons a).trans (List.sublist_append_right ..)
      have hsecond : [b, a].Sublist (before' ++ b :: after') :=
        ((List.singleton_sublist.mpr hlater').cons_cons b).trans (List.sublist_append_right ..)
      exact not_sublist_swap (hperm.nodup_iff.mp hnodup) (hkeep a b x y ha hb hxy hfirst) hsecond

theorem findSome?_flatMap (f : β → Option γ) (g : α → List β) : ∀ list : List α,
    (list.flatMap g).findSome? f = list.findSome? fun a => (g a).findSome? f
  | [] => rfl
  | a :: list => by
    rw [List.flatMap_cons, List.findSome?_append, findSome?_flatMap f g list, List.findSome?_cons]
    cases (g a).findSome? f with
    | none => rfl
    | some found => rfl

namespace OrderedMap

theorem get?_eq_findSome? (map : List (String × α)) (name : String) :
    get? map name = map.findSome? fun entry => if entry.1 = name then some entry.2 else none := by
  induction map with
  | nil => rfl
  | cons entry rest ih =>
    obtain ⟨key, value⟩ := entry
    by_cases h : key = name
    · simp [get?, h]
    · simp [get?, h, ih]

/-- **Searching a map to which pairs were added under new names**: what was there comes first,
and of the pairs those count that the map finds under their names. -/
theorem findSome?_foldl_insertNew [DecidableEq α] (f : String × α → Option β) :
    ∀ (pairs map : List (String × α)),
      (pairs.foldl (fun map pair => insertNew map pair.1 pair.2) map).findSome? f
        = (map.findSome? f).or (pairs.findSome? fun pair =>
            if (get? map pair.1).or (get? pairs pair.1) = some pair.2 then f pair else none) := by
  intro pairs
  induction pairs with
  | nil => intro map; simp
  | cons pair rest ih =>
    intro map
    have hseen : ∀ name, (get? (insertNew map pair.1 pair.2) name).or (get? rest name)
        = (get? map name).or (get? (pair :: rest) name) := by
      intro name
      rw [get?_insertNew, Option.or_assoc, ← get?_append]
      rfl
    rw [List.foldl_cons, ih, List.findSome?_cons]
    simp only [hseen]
    generalize (rest.findSome? fun other =>
      if (get? map other.1).or (get? (pair :: rest) other.1) = some other.2 then f other
      else none) = later
    rw [insertNew]
    split
    · next hheld =>
      -- the name is held, and the pair counts only if it is held with the name
      obtain ⟨value, hvalue⟩ := exists_get?_of_mem (contains_iff.mp hheld)
      cases hfound : map.findSome? f with
      | some found => rfl
      | none =>
        have hnone : f (pair.1, value) = none :=
          List.findSome?_eq_none_iff.mp hfound _ (mem_of_get? hvalue)
        rw [hvalue, Option.some_or]
        by_cases hsame : value = pair.2
        · subst hsame
          rw [if_pos rfl, hnone]
        · rw [if_neg fun h => hsame (Option.some.inj h)]
    · next hnew =>
      have hget : (get? map pair.1).or (get? (pair :: rest) pair.1) = some pair.2 := by
        rw [get?_eq_none_iff.mpr fun hmem => hnew (contains_iff.mpr hmem), Option.none_or]
        simp [get?]
      rw [if_pos hget, List.findSome?_append, Option.or_assoc]
      congr 1
      rw [List.findSome?_cons]
      cases f pair with
      | none => rfl
      | some found => rfl

end OrderedMap
end Finds

/-! ### Sheets that compete -/

/-- The name of an entry that is generated under a given name. -/
def Declaration.keyFor? (naming : NameStyle) (generated : String)
    (entry : String × Declaration) : Option String :=
  if entry.2.generatedName naming entry.1 = generated then some entry.1 else none

namespace Schema

/-- The global types of a sheet by name. -/
def shared (schema : Schema) : List (String × Declaration) :=
  schema.declarations.filterMap fun entry =>
    if entry.2.isGlobal then some (entry.1.label, entry.2) else none

/-- The name that a sheet offers another one for a generated name: that of its first global
type which the other sees and which is generated so. -/
def offers? (schema : Schema) (schemas : List Schema) (naming : NameStyle) (generated : String)
    (other : Schema) : Option String :=
  other.shared.findSome? fun entry =>
    if schema.sees? schemas entry.1 = some entry.2 then Declaration.keyFor? naming generated entry
    else none

/-- That two sheets compete in the scope of a sheet. -/
inductive Compete (schema : Schema) (schemas : List Schema) (naming : NameStyle) (a b : Schema) :
    Prop
  /-- For a name that the sheet does not declare itself, both have a global type, and not the
  same. -/
  | declared {name : String} {first second : Declaration}
      (hown : OrderedMap.get? schema.named name = none)
      (ha : OrderedMap.get? a.shared name = some first)
      (hb : OrderedMap.get? b.shared name = some second) (hne : first ≠ second) :
      Compete schema schemas naming a b
  /-- For a generated name under which the sheet sees nothing, and generates nothing itself,
  both offer a name, and not the same. -/
  | generated {generated first second : String}
      (hunseen : schema.sees? schemas generated = none)
      (hown : ∀ entry ∈ schema.named, entry.2.generatedName naming entry.1 ≠ generated)
      (ha : schema.offers? schemas naming generated a = some first)
      (hb : schema.offers? schemas naming generated b = some second) (hne : first ≠ second) :
      Compete schema schemas naming a b

/-- That a rearrangement of the sheets keeps those in order that compete in the scope of a
sheet. -/
def KeepsOrder (schema : Schema) (naming : NameStyle) (schemas schemas' : List Schema) : Prop :=
  ∀ a b, a.sheet ≠ schema.sheet → b.sheet ≠ schema.sheet → schema.Compete schemas naming a b →
    [a, b].Sublist schemas → [a, b].Sublist schemas'

/-- That two sheets have no name in common for their global types, declared or generated. -/
def SharesApart (naming : NameStyle) (a b : Schema) : Prop :=
  ∀ first ∈ a.shared, ∀ second ∈ b.shared, first.1 ≠ second.1 ∧
    first.2.generatedName naming first.1 ≠ second.2.generatedName naming second.1

instance (naming : NameStyle) (a b : Schema) : Decidable (a.SharesApart naming b) :=
  inferInstanceAs (Decidable (∀ first ∈ a.shared, _))

theorem exists_of_offers? {schema other : Schema} {schemas : List Schema} {naming : NameStyle}
    {generated key : String} (h : schema.offers? schemas naming generated other = some key) :
    ∃ entry ∈ other.shared, entry.2.generatedName naming entry.1 = generated := by
  obtain ⟨entry, hentry, hkey⟩ := List.exists_of_findSome?_eq_some h
  refine ⟨entry, hentry, ?_⟩
  split at hkey
  · rw [Declaration.keyFor?] at hkey
    split at hkey
    · next hgenerated => exact hgenerated
    · cases hkey
  · cases hkey

/-- Sheets compete for names that they have in common. -/
theorem Compete.not_sharesApart {schema a b : Schema} {schemas : List Schema}
    {naming : NameStyle} (h : schema.Compete schemas naming a b) : ¬ a.SharesApart naming b := by
  intro hapart
  cases h with
  | declared _ ha hb _ =>
    exact (hapart _ (OrderedMap.mem_of_get? ha) _ (OrderedMap.mem_of_get? hb)).1 rfl
  | generated _ _ ha hb _ =>
    obtain ⟨first, hfirst, hgenerated⟩ := exists_of_offers? ha
    obtain ⟨second, hsecond, hsame⟩ := exists_of_offers? hb
    exact (hapart first hfirst second hsecond).2 (hgenerated.trans hsame.symm)

/-- **Sheets that have no names in common may be given in any order.** -/
theorem keepsOrder_of_sharesApart {naming : NameStyle} {schemas schemas' : List Schema}
    (h : schemas.Pairwise fun a b => a.SharesApart naming b ∨ [a, b].Sublist schemas')
    (schema : Schema) : schema.KeepsOrder naming schemas schemas' := by
  intro a b _ _ hcompete hsub
  rcases List.pairwise_iff_forall_sublist.mp h hsub with hapart | hkept
  · exact absurd hapart hcompete.not_sharesApart
  · exact hkept

/-! ### What a sheet sees -/

/-- The global types of the other sheets, sheet by sheet. -/
theorem globals_eq_flatMap_shared (sheet : String) (others : List Schema) :
    Scope.globals sheet others
      = (others.filter fun other => other.sheet ≠ sheet).flatMap shared := by
  rw [Scope.globals, List.filterMap_flatMap]
  rfl

variable {schema : Schema} {schemas schemas' : List Schema} {naming : NameStyle}

/-- The first find among the other sheets is the same after a rearrangement, if those with
different finds keep their order. -/
theorem findSome?_others_perm {β : Type} {find : Schema → Option β} (hnodup : schemas.Nodup)
    (hperm : schemas.Perm schemas')
    (hkeep : ∀ a b x y, a.sheet ≠ schema.sheet → b.sheet ≠ schema.sheet → find a = some x →
      find b = some y → x ≠ y → [a, b].Sublist schemas → [a, b].Sublist schemas') :
    (schemas'.filter fun other => other.sheet ≠ schema.sheet).findSome? find
      = (schemas.filter fun other => other.sheet ≠ schema.sheet).findSome? find := by
  refine findSome?_perm (hperm.filter _) (hnodup.filter _) ?_
  intro a b x y ha hb hne hsub
  have hother : ∀ other ∈ [a, b], other.sheet ≠ schema.sheet := by
    intro other hmem
    simpa using (List.mem_filter.mp (hsub.subset hmem)).2
  have hkept := hkeep a b x y (hother a (by simp)) (hother b (by simp)) ha hb hne
    (hsub.trans List.filter_sublist)
  -- neither of the two is filtered out, so their order carries over to the others
  have hself : ([a, b].filter fun other => other.sheet ≠ schema.sheet) = [a, b] :=
    List.filter_eq_self.mpr fun other hmem => by simpa using hother other hmem
  have hfiltered := hkept.filter fun other => decide (other.sheet ≠ schema.sheet)
  rwa [hself] at hfiltered

/-- **A sheet sees the same types** whatever the order of sheets that do not compete. -/
theorem sees?_perm (hnodup : schemas.Nodup) (hperm : schemas.Perm schemas')
    (hkeep : schema.KeepsOrder naming schemas schemas') (name : String) :
    schema.sees? schemas' name = schema.sees? schemas name := by
  rw [sees?, sees?]
  cases hown : OrderedMap.get? schema.named name with
  | some declaration => rfl
  | none =>
    rw [globals_eq_flatMap_shared, globals_eq_flatMap_shared, OrderedMap.get?_eq_findSome?,
      OrderedMap.get?_eq_findSome?, findSome?_flatMap, findSome?_flatMap]
    simp only [← OrderedMap.get?_eq_findSome?, Option.none_or]
    refine findSome?_others_perm hnodup hperm fun a b first second ha hb hfirst hsecond hne => ?_
    exact hkeep a b ha hb (.declared hown hfirst hsecond hne)

end Schema

namespace Scope

variable {schema : Schema} {schemas schemas' : List Schema} {naming : NameStyle}
  {scope scope' : Scope}

/-! ### Aliases -/

/-- A generated name that nothing is declared under stands for the first declaration that is
generated so. -/
theorem get?_aliasesOf_eq_findSome? {declared : List (String × Declaration)} {generated : String}
    (hnew : generated ∉ declared.map Prod.fst) :
    OrderedMap.get? (aliasesOf naming declared) generated
      = declared.findSome? (Declaration.keyFor? naming generated) := by
  have habsent : OrderedMap.contains declared generated = false := by
    rw [Bool.eq_false_iff]
    exact fun hheld => hnew (OrderedMap.contains_iff.mp hheld)
  -- the condition on aliases is about the whole list, the induction about what is left of it
  have hall : ∀ entries : List (String × Declaration),
      (∀ entry ∈ entries, entry.1 ∈ declared.map Prod.fst) →
      OrderedMap.get? (entries.filterMap fun entry =>
          if entry.2.generatedName naming entry.1 ≠ entry.1 &&
              !OrderedMap.contains declared (entry.2.generatedName naming entry.1) then
            some (entry.2.generatedName naming entry.1, entry.1)
          else none) generated
        = entries.findSome? (Declaration.keyFor? naming generated) := by
    intro entries
    induction entries with
    | nil => intro _; rfl
    | cons entry rest ih =>
      intro hheld
      rw [List.forall_mem_cons] at hheld
      have hrest := ih hheld.2
      rw [List.filterMap_cons, List.findSome?_cons, Declaration.keyFor?]
      by_cases hgenerated : entry.2.generatedName naming entry.1 = generated
      · have hne : generated ≠ entry.1 := by
          rintro rfl
          exact hnew hheld.1
        simp [hgenerated, hne, habsent, OrderedMap.get?]
      · rw [if_neg hgenerated]
        split
        · exact hrest
        · next found hfound =>
          split at hfound
          · cases hfound
            simp only [OrderedMap.get?, if_neg hgenerated]
            exact hrest
          · cases hfound
  rw [get?_aliasesOf]
  exact hall declared fun entry hentry => List.mem_map_of_mem hentry

/-- **The alias of a generated name** that nothing is seen under: a name of the sheet itself,
else the first that another sheet offers. -/
theorem get?_aliases_eq_offers? (h : ofSchemas schema schemas naming = .ok scope)
    {generated : String} (hunseen : schema.sees? schemas generated = none) :
    OrderedMap.get? scope.aliases generated
      = (schema.named.findSome? (Declaration.keyFor? naming generated)).or
          ((schemas.filter fun other => other.sheet ≠ schema.sheet).findSome?
            (schema.offers? schemas naming generated)) := by
  obtain ⟨-, hdeclared, haliases⟩ := ofSchemas_eq_ok h
  rw [haliases, get?_aliasesOf_eq_findSome? ((not_mem_names_iff h).mpr hunseen), hdeclared,
    OrderedMap.findSome?_foldl_insertNew]
  rw [Schema.globals_eq_flatMap_shared, findSome?_flatMap, ← Schema.globals_eq_flatMap_shared]
  rfl

/-! ### Scopes -/

/-- That two scopes answer alike. -/
structure Agrees (scope scope' : Scope) : Prop where
  declared : ∀ name, OrderedMap.get? scope'.declared name = OrderedMap.get? scope.declared name
  aliases : ∀ name, OrderedMap.get? scope'.aliases name = OrderedMap.get? scope.aliases name
  enums : ∀ name, OrderedMap.get? scope'.enums name = OrderedMap.get? scope.enums name
  recordCount : scope'.recordCount = scope.recordCount

/-- The enumerations of a scope are those that its sheet sees. -/
theorem get?_enums_eq_sees? (h : ofSchemas schema schemas naming = .ok scope) (name : String) :
    OrderedMap.get? scope.enums name = (schema.sees? schemas name).bind Declaration.enum? := by
  cases hsees : schema.sees? schemas name with
  | none =>
    exact OrderedMap.get?_filterMap_of_not_mem (fun entry : String × Declaration => entry.2.enum?)
      ((not_mem_names_iff h).mpr hsees)
  | some declaration =>
    exact OrderedMap.get?_filterMap_of_nodup (fun entry : String × Declaration => entry.2.enum?)
      (nodup_declared h) ((mem_declared_iff h).mpr hsees)

/-- Scopes of sheets that see the same hold the same declarations, if in another order. -/
theorem declared_perm (h : ofSchemas schema schemas naming = .ok scope)
    (h' : ofSchemas schema schemas' naming = .ok scope')
    (hsees : ∀ name, schema.sees? schemas' name = schema.sees? schemas name) :
    scope'.declared.Perm scope.declared := by
  rw [List.perm_ext_iff_of_nodup (nodup_declared h').of_map (nodup_declared h).of_map]
  rintro ⟨name, declaration⟩
  rw [mem_declared_iff h, mem_declared_iff h', hsees]

/-- **The scope of a sheet answers alike** whatever the order of sheets that do not compete. -/
theorem agrees_perm (hnodup : schemas.Nodup) (hperm : schemas.Perm schemas')
    (hkeep : schema.KeepsOrder naming schemas schemas')
    (h : ofSchemas schema schemas naming = .ok scope)
    (h' : ofSchemas schema schemas' naming = .ok scope') : scope.Agrees scope' := by
  have hsees := Schema.sees?_perm hnodup hperm hkeep
  constructor
  case declared =>
    intro name
    rw [get?_declared h, get?_declared h', hsees]
  case aliases =>
    intro name
    cases hseen : schema.sees? schemas name with
    | some declaration =>
      rw [get?_aliases_eq_none h hseen, get?_aliases_eq_none h' ((hsees name).trans hseen)]
    | none =>
      have hoffers : schema.offers? schemas' naming name = schema.offers? schemas naming name := by
        funext other
        simp only [Schema.offers?, hsees]
      rw [get?_aliases_eq_offers? h hseen, get?_aliases_eq_offers? h' ((hsees name).trans hseen),
        hoffers]
      -- own declarations are asked for the name first, then the other sheets in order
      cases hown : schema.named.findSome? (Declaration.keyFor? naming name) with
      | some key => rfl
      | none =>
        rw [List.findSome?_eq_none_iff] at hown
        -- sheets compete for a generated name only if the sheet has none of its own for it
        have hforeign : ∀ entry ∈ schema.named, entry.2.generatedName naming entry.1 ≠ name := by
          intro entry hentry hgenerated
          have hnone := hown entry hentry
          rw [Declaration.keyFor?, if_pos hgenerated] at hnone
          cases hnone
        rw [Option.none_or, Option.none_or]
        refine Schema.findSome?_others_perm hnodup hperm
          fun a b first second ha hb hfirst hsecond hne => ?_
        exact hkeep a b ha hb (.generated hseen hforeign hfirst hsecond hne)
  case enums =>
    intro name
    rw [get?_enums_eq_sees? h, get?_enums_eq_sees? h', hsees]
  case recordCount => exact ((declared_perm h h' hsees).filter _).length_eq

namespace Agrees

variable (hagrees : scope.Agrees scope')

include hagrees

theorem declaredName : scope'.declaredName = scope.declaredName := by
  funext name
  rw [Scope.declaredName, Scope.declaredName, hagrees.aliases]

theorem record? : scope'.record? = scope.record? := by
  funext name
  rw [Scope.record?, Scope.record?, hagrees.declared]

theorem resolve : scope'.resolve = scope.resolve := by
  funext cell type
  refine resolve_congr fun name _ => ?_
  rw [meaning?, meaning?, hagrees.declaredName, hagrees.declared]

end Agrees
end Scope

/-! ### Catalogs -/

namespace Catalog

variable {schema : Schema} {schemas schemas' : List Schema} {naming : NameStyle}

section Shapes

variable {scope scope' : Scope} (h : scope.Agrees scope')

include h

theorem entityShape_agrees :
    entityShape scope' naming schema = entityShape scope naming schema := by
  have hfield : designField scope' naming = designField scope naming := by
    funext field
    rw [designField, designField, h.resolve]
  rw [entityShape, entityShape, hfield]

theorem constantShape_agrees :
    constantShape scope' naming schema = constantShape scope naming schema := by
  have hfield : constantField scope' naming = constantField scope naming := by
    funext field
    rw [constantField, constantField, h.resolve]
  rw [constantShape, constantShape, hfield]

/-- Records are resolved alike, round by round. -/
theorem resolveRecords_agrees : ∀ (rounds : Nat) (resolved : List (String × Shape))
    (pending : List String), resolveRecords scope' naming rounds resolved pending
      = resolveRecords scope naming rounds resolved pending := by
  have hshape : recordShape scope' naming = recordShape scope naming := by
    have hfield : recordField scope' naming = recordField scope naming := by
      funext field
      rw [recordField, recordField, h.resolve]
    funext record
    rw [recordShape, recordShape, hfield]
  -- the scope is asked twice in a round: for the next record and for its types
  have hnext : nextRecord? scope' = nextRecord? scope := by
    funext resolved pending
    rw [nextRecord?, nextRecord?, h.record?]
  intro rounds
  induction rounds with
  | zero => intro resolved pending; rfl
  | succ rounds ih =>
    intro resolved pending
    simp only [resolveRecords, hnext, hshape, ih]

end Shapes

/-- Catalogs are only asked by name: what their maps find is all that counts. -/
theorem agrees_of_get? {catalog catalog' : Catalog} (hnaming : catalog'.naming = catalog.naming)
    (hentity : catalog'.entity = catalog.entity)
    (hconstants : catalog'.constants = catalog.constants)
    (hrecords : catalog'.records = catalog.records)
    (haliases : ∀ name,
      OrderedMap.get? catalog'.aliases name = OrderedMap.get? catalog.aliases name)
    (henums : ∀ name, OrderedMap.get? catalog'.enums name = OrderedMap.get? catalog.enums name) :
    catalog.Agrees catalog' := by
  have hname : catalog'.declaredName = catalog.declaredName := by
    funext name
    rw [declaredName, declaredName, haliases]
  have henum : catalog'.enum? = catalog.enum? := by
    funext name
    rw [enum?, enum?, hname, henums]
  refine ⟨hnaming, hentity, hconstants, ?_, ?_, ?_⟩
  · funext name
    rw [record?, record?, hname, hrecords]
  · funext name text
    exact ofEnumText?_congr hnaming (congrFun henum name) text
  · funext name
    simp only [enumZero, memberValue, henum, hnaming]

/-- **The catalog of a sheet** whatever the order of sheets that do not compete: there is none
for the same fault, or there are two that answer alike. -/
theorem ofSchemas_perm (hnodup : schemas.Nodup) (hperm : schemas.Perm schemas')
    (hkeep : schema.KeepsOrder naming schemas schemas') :
    (∃ fault, ofSchemas schema schemas naming = .error fault ∧
      ofSchemas schema schemas' naming = .error fault) ∨
    ∃ catalog catalog', ofSchemas schema schemas naming = .ok catalog ∧
      ofSchemas schema schemas' naming = .ok catalog' ∧ catalog.Agrees catalog' := by
  cases hown : Scope.ownNames schema.declarations [] with
  | error fault =>
    left
    refine ⟨fault, ?_, ?_⟩
    · rw [ofSchemas, Scope.ofSchemas, hown]
      rfl
    · rw [ofSchemas, Scope.ofSchemas, hown]
      rfl
  | ok own =>
    obtain ⟨scope, hscope⟩ : ∃ scope, Scope.ofSchemas schema schemas naming = .ok scope :=
      ⟨_, by rw [Scope.ofSchemas, hown]; rfl⟩
    obtain ⟨scope', hscope'⟩ : ∃ scope, Scope.ofSchemas schema schemas' naming = .ok scope :=
      ⟨_, by rw [Scope.ofSchemas, hown]; rfl⟩
    have hagrees := Scope.agrees_perm hnodup hperm hkeep hscope hscope'
    -- the two runs go the same way, and differ in the order of two maps only
    rw [ofSchemas, ofSchemas, hscope, hscope']
    simp only [bind, Except.bind, entityShape_agrees hagrees, constantShape_agrees hagrees,
      resolveRecords_agrees hagrees, hagrees.recordCount]
    cases entityShape scope naming schema with
    | error fault => exact Or.inl ⟨fault, rfl, rfl⟩
    | ok entity =>
      cases constantShape scope naming schema with
      | error fault => exact Or.inl ⟨fault, rfl, rfl⟩
      | ok constants =>
        dsimp only
        cases resolveRecords scope naming scope.recordCount []
            (pendingRecords schema entity constants).reverse with
        | error fault => exact Or.inl ⟨fault, rfl, rfl⟩
        | ok records =>
          exact Or.inr ⟨_, _, rfl, rfl,
            agrees_of_get? rfl rfl rfl rfl hagrees.aliases hagrees.enums⟩

end Catalog

/-- **Sheets may be given in any order that keeps competing sheets in order.**  For every sheet
and every run of sheets with names of their own, a rearrangement of the run that keeps those in
order which compete in the scope of the sheet gives the same output for it, with its code, data
and warnings, or the same error. -/
theorem Settings.compileSheet_perm {settings : Settings} {schema : Schema}
    {schemas schemas' : List Schema} (hnames : (schemas.map Schema.sheet).Nodup)
    (hperm : schemas.Perm schemas') (hkeep : schema.KeepsOrder settings.names schemas schemas')
    (grid : Grid) :
    settings.compileSheet schema grid schemas' = settings.compileSheet schema grid schemas := by
  rw [compileSheet, compileSheet]
  cases settings.dialect with
  | error e => rfl
  | ok dialect =>
    rcases Catalog.ofSchemas_perm hnames.of_map hperm hkeep with
      ⟨fault, hold, hnew⟩ | ⟨catalog, catalog', hold, hnew, hagrees⟩
    · rw [hold, hnew]
    · rw [hold, hnew]
      simp only [bind, Except.bind, charge, SheetValues.read_agrees hagrees, hagrees.naming,
        CSharp.sheetFile_agrees hagrees, SheetValues.document?_agrees hagrees]

/-! ### Two kinds of items -/

namespace Badges

/-- A sheet with a global enumeration of one member. -/
def kinds (sheet name member : String) : Schema :=
  ⟨sheet, [⟨some name, ["Global"], none, ⟨0, 0⟩,
    .enum ⟨true, .int, [⟨member, none, 0, none, ⟨2, 0⟩⟩]⟩⟩]⟩

/-- A sheet of items with a kind of a given type. -/
def item (type : String) : Schema := ⟨"Item", [⟨none, [], none, ⟨0, 0⟩, .design ⟨[], [
  ⟨"id", .scalar .int, true, none, false, none, ⟨2, 0⟩, ⟨2, 1⟩⟩,
  ⟨"kind", .named type, false, none, false, none, ⟨3, 0⟩, ⟨3, 1⟩⟩]⟩⟩]⟩

/-- Settings for sheets in the casing of their rows. -/
def settings : Settings := { sheet := { casing := .lowerSnake } }

def grid : Grid := ⟨#[
  #[some "[design]"], #[], #[], #[], #[some "[name]"], #[some "id", some "kind"],
  #[some "[data]"], #[some "1", some "a"]]⟩

/-- Two sheets with a global enumeration of one name. -/
def declared : List Schema :=
  [kinds "First" "kind" "a", kinds "Second" "kind" "b", item "kind"]

/-- Two sheets with global enumerations that are generated under one name. -/
def generated : List Schema :=
  [kinds "First" "item_kind" "a", kinds "Second" "item__kind" "b", item "ItemKind"]

/-- The first two sheets of a run exchanged. -/
def exchanged : List Schema → List Schema
  | first :: second :: rest => second :: first :: rest
  | schemas => schemas

/-- **Where sheets compete, their order shows**: for a declared name, and for a generated one.
The item has the kind of the first sheet, and does not compile if that is second. -/
theorem order_shows :
    ((declared.map Schema.sheet).Nodup ∧ declared.Perm (exchanged declared) ∧
      (settings.compileSheet (item "kind") grid declared).isOk = true ∧
      (settings.compileSheet (item "kind") grid (exchanged declared)).isOk = false) ∧
    (generated.map Schema.sheet).Nodup ∧ generated.Perm (exchanged generated) ∧
      (settings.compileSheet (item "ItemKind") grid generated).isOk = true ∧
      (settings.compileSheet (item "ItemKind") grid (exchanged generated)).isOk = false := by
  refine ⟨⟨by decide, List.Perm.swap .., ?_, ?_⟩, by decide, List.Perm.swap .., ?_, ?_⟩
  all_goals decide +kernel

/-- A sheet with a global enumeration that no other has. -/
def sizes : Schema := kinds "Sizes" "size" "small"

/-- Only the first two sheets compete, and so the others may stand anywhere. -/
theorem compileSheet_rearranged :
    settings.compileSheet (item "kind") grid
        [sizes, kinds "First" "kind" "a", item "kind", kinds "Second" "kind" "b"]
      = settings.compileSheet (item "kind") grid (declared ++ [sizes]) ∧
    (settings.compileSheet (item "kind") grid (declared ++ [sizes])).isOk = true := by
  refine ⟨?_, by decide +kernel⟩
  refine Settings.compileSheet_perm (by decide) (by decide) ?_ grid
  exact Schema.keepsOrder_of_sharesApart (by decide +kernel) (item "kind")

end Badges
end TypedSheets

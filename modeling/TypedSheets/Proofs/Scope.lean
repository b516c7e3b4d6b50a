import TypedSheets.Catalog.Basic
import TypedSheets.Proofs.OrderedMap
import TypedSheets.Proofs.Result

/-!
# What a sheet sees

A scope is built by writing names one after another: those of the sheet, then the global
ones of the other sheets, then generated names as aliases.  Here is what it finds, said
without the order of writing: under a name stands the declaration of the sheet itself, else
the first global one; and a name that nothing is declared under stands for a declaration
that is generated under it, if there is one.

What a type as written resolves to depends on the one name in it and on what that name
stands for, and on nothing else of the scope.

## Main definitions

* `Schema.named`, `Schema.sees?` — declarations by name, and the one that a sheet sees.
* `Scope.meaning?` — what a name in a type cell stands for.
* `ResolvedType.enumNames`, `ResolvedType.namesOf` — the enumerations a type names, and its
  names of either kind.

## Main results

* `Scope.get?_declared` — **a scope holds what its sheet sees.**
* `Scope.declaredName_of_sees?` — no alias hides a declared name.
* `Scope.meaning?_eq_none_iff` — **which names stand for nothing.**
* `Scope.resolve_eq_error_iff`, `Scope.resolve_cases` — which types do not resolve, and what
  those that do name.
* `Scope.resolve_congr` — scopes that agree on a name resolve the types with it alike.
-/

namespace TypedSheets

/-- The declarations of a sheet with their names. -/
def Schema.named (schema : Schema) : List (String × Declaration) :=
  schema.declarations.map fun entry => (entry.1.label, entry.2)

/-- The declaration that a sheet sees under a name: its own, else the first global one of
the other sheets. -/
def Schema.sees? (schema : Schema) (others : List Schema) (name : String) : Option Declaration :=
  (OrderedMap.get? schema.named name).or
    (OrderedMap.get? (Scope.globals schema.sheet others) name)

/-- The enumerations a type names. -/
def ResolvedType.enumNames : ResolvedType → List String
  | .enum name => [name]
  | .list element => element.enumNames
  | .nullable inner => inner.enumNames
  | .reference key _ => key.enumNames
  | .scalar _ | .record _ => []

/-- The enumerations the fields of a shape name. -/
def Shape.enumNames (shape : Shape) : List String :=
  shape.fields.flatMap fun field => field.type.enumNames

/-- The kinds of declarations that types name. -/
inductive TypeKind where
  | enum
  | record
deriving DecidableEq

/-- The kind of a declaration. -/
def Declaration.kind : Declaration → TypeKind
  | .enum _ => .enum
  | .record _ => .record

/-- The declarations of one kind that a type names. -/
def ResolvedType.namesOf (kind : TypeKind) (type : ResolvedType) : List String :=
  match kind with
  | .enum => type.enumNames
  | .record => type.recordNames

/-- The declarations of one kind that the fields of a shape name. -/
def Shape.namesOf (kind : TypeKind) (shape : Shape) : List String :=
  match kind with
  | .enum => shape.enumNames
  | .record => shape.recordNames

theorem Shape.mem_namesOf (kind : TypeKind) {shape : Shape} {name : String} :
    name ∈ shape.namesOf kind ↔ ∃ field ∈ shape.fields, name ∈ field.type.namesOf kind := by
  cases kind with
  | enum => exact List.mem_flatMap
  | record => exact List.mem_flatMap

/-! Neither `?` nor a reference changes what a type names. -/

@[simp] theorem ResolvedType.recordNames_bare (type : ResolvedType) :
    type.bare.recordNames = type.recordNames := by
  induction type with
  | nullable inner ih => exact ih
  | reference key _ ih => exact ih
  | _ => rfl

@[simp] theorem ResolvedType.enumNames_bare (type : ResolvedType) :
    type.bare.enumNames = type.enumNames := by
  induction type with
  | nullable inner ih => exact ih
  | reference key _ ih => exact ih
  | _ => rfl

namespace Scope

/-- What a name in a type cell stands for: a declaration, with the name it is declared
under. -/
def meaning? (scope : Scope) (name : String) : Option (String × Declaration) :=
  (OrderedMap.get? scope.declared (scope.declaredName name)).map fun declaration =>
    (scope.declaredName name, declaration)

/-! ### Declared names -/

/-- The names of a sheet itself are kept as they are, and none occurs twice. -/
theorem ownNames_eq_ok : ∀ {entries : List (Block × Declaration)} {seen : List (String × Cell)}
    {names : List (String × Declaration)}, ownNames entries seen = .ok names →
      names = entries.map (fun entry => (entry.1.label, entry.2)) ∧
      (names.map Prod.fst).Nodup ∧ ∀ name ∈ names.map Prod.fst, name ∉ seen.map Prod.fst := by
  intro entries
  induction entries with
  | nil =>
    intro seen names h
    rw [ownNames] at h
    cases h
    simp
  | cons entry entries ih =>
    intro seen names h
    obtain ⟨block, declaration⟩ := entry
    rw [ownNames] at h
    split at h
    · cases h
    · next hnew =>
      obtain ⟨rest, hrest, h⟩ := bind_eq_ok.mp h
      cases h
      obtain ⟨hnames, hnodup, hseen⟩ := ih hrest
      have hlater : block.label ∉ rest.map Prod.fst := by
        intro hmem
        have habsent := OrderedMap.get?_eq_none_iff.mpr (hseen _ hmem)
        rw [OrderedMap.get?_insert_self] at habsent
        cases habsent
      refine ⟨by rw [hnames]; rfl, List.nodup_cons.mpr ⟨hlater, hnodup⟩, ?_⟩
      intro name hname
      rcases List.mem_cons.mp hname with rfl | hname
      · exact OrderedMap.get?_eq_none_iff.mp hnew
      · -- a later name is none of those seen before either
        have hne : block.label ≠ name := by
          rintro rfl
          exact hlater hname
        rw [← OrderedMap.get?_eq_none_iff,
          ← OrderedMap.get?_insert_of_ne seen block.origin hne]
        exact OrderedMap.get?_eq_none_iff.mpr (hseen name hname)

variable {schema : Schema} {others : List Schema} {naming : NameStyle} {scope : Scope}

/-- The parts of a scope. -/
theorem ofSchemas_eq_ok (h : ofSchemas schema others naming = .ok scope) :
    (schema.named.map Prod.fst).Nodup ∧
      scope.declared = (globals schema.sheet others).foldl
        (fun declared pair => OrderedMap.insertNew declared pair.1 pair.2) schema.named ∧
      scope.aliases = aliasesOf naming scope.declared := by
  rw [ofSchemas] at h
  obtain ⟨own, hown, h⟩ := bind_eq_ok.mp h
  cases h
  obtain ⟨rfl, hnodup, -⟩ := ownNames_eq_ok hown
  exact ⟨hnodup, rfl, rfl⟩

/-- **A scope holds what its sheet sees.** -/
theorem get?_declared (h : ofSchemas schema others naming = .ok scope) (name : String) :
    OrderedMap.get? scope.declared name = schema.sees? others name := by
  obtain ⟨-, hdeclared, -⟩ := ofSchemas_eq_ok h
  rw [hdeclared, OrderedMap.get?_foldl_insertNew, Schema.sees?]

theorem nodup_declared (h : ofSchemas schema others naming = .ok scope) :
    (scope.declared.map Prod.fst).Nodup := by
  obtain ⟨hnodup, hdeclared, -⟩ := ofSchemas_eq_ok h
  rw [hdeclared]
  exact OrderedMap.nodup_foldl_insertNew _ hnodup

theorem mem_declared_iff (h : ofSchemas schema others naming = .ok scope) {name : String}
    {declaration : Declaration} :
    (name, declaration) ∈ scope.declared ↔ schema.sees? others name = some declaration := by
  rw [← get?_declared h]
  exact ⟨OrderedMap.get?_of_mem (nodup_declared h), OrderedMap.mem_of_get?⟩

theorem not_mem_names_iff (h : ofSchemas schema others naming = .ok scope) {name : String} :
    name ∉ scope.declared.map Prod.fst ↔ schema.sees? others name = none := by
  rw [← get?_declared h, OrderedMap.get?_eq_none_iff]

/-- A sheet sees its own declarations. -/
theorem sees?_of_mem_declarations (h : ofSchemas schema others naming = .ok scope) {block : Block}
    {declaration : Declaration} (hmem : (block, declaration) ∈ schema.declarations) :
    schema.sees? others block.label = some declaration := by
  obtain ⟨hnodup, -, -⟩ := ofSchemas_eq_ok h
  have hnamed : (block.label, declaration) ∈ schema.named :=
    List.mem_map.mpr ⟨(block, declaration), hmem, rfl⟩
  rw [Schema.sees?, OrderedMap.get?_of_mem hnodup hnamed, Option.some_or]

/-- **What a sheet sees** is its own, or a global declaration of another sheet under a name that
it declares nothing under itself. -/
theorem sees?_cases {name : String} {declaration : Declaration}
    (h : schema.sees? others name = some declaration) :
    (∃ block, (block, declaration) ∈ schema.declarations ∧ block.label = name) ∨
      ∃ owner ∈ others, owner.sheet ≠ schema.sheet ∧ declaration.isGlobal = true ∧
        (∃ block, (block, declaration) ∈ owner.declarations ∧ block.label = name) ∧
        ∀ own ∈ schema.declarations, own.1.label ≠ name := by
  rw [Schema.sees?, Option.or_eq_some_iff] at h
  rcases h with hown | ⟨hnone, hglobal⟩
  · obtain ⟨entry, hentry, heq⟩ := List.mem_map.mp (OrderedMap.mem_of_get? hown)
    cases heq
    exact Or.inl ⟨entry.1, hentry, rfl⟩
  · obtain ⟨⟨block, found⟩, hentry, heq⟩ :=
      List.mem_filterMap.mp (OrderedMap.mem_of_get? hglobal)
    obtain ⟨owner, howner, hentry⟩ := List.mem_flatMap.mp hentry
    obtain ⟨hmem, hsheet⟩ := List.mem_filter.mp howner
    dsimp only at heq
    split at heq
    · next hflag =>
      cases heq
      refine Or.inr ⟨owner, hmem, by simpa using hsheet, hflag, ⟨block, hentry, rfl⟩, ?_⟩
      -- an own declaration would have been found first
      intro own hmem hlabel
      exact OrderedMap.get?_eq_none_iff.mp hnone
        (List.mem_map.mpr ⟨_, List.mem_map.mpr ⟨own, hmem, rfl⟩, hlabel⟩)
    · cases heq

/-! ### Aliases -/

/-- An alias is the first declaration that is generated under a name nothing is declared
under. -/
theorem get?_aliasesOf (naming : NameStyle) (declared : List (String × Declaration))
    (name : String) :
    OrderedMap.get? (aliasesOf naming declared) name
      = OrderedMap.get? (declared.filterMap fun entry =>
          let generated := entry.2.generatedName naming entry.1
          if generated ≠ entry.1 && !OrderedMap.contains declared generated then
            some (generated, entry.1)
          else none) name := by
  rw [← Option.none_or (o := OrderedMap.get? (List.filterMap _ declared) name)]
  refine Eq.trans ?_ (OrderedMap.get?_foldl_insertNew _ name [])
  -- the loop over the declarations skips those that need no alias
  rw [List.foldl_filterMap, aliasesOf]
  congr 2
  funext aliases entry
  dsimp only
  split
  · rfl
  · rfl

theorem of_get?_aliasesOf {declared : List (String × Declaration)} {name key : String}
    (h : OrderedMap.get? (aliasesOf naming declared) name = some key) :
    name ∉ declared.map Prod.fst ∧
      ∃ declaration, (key, declaration) ∈ declared ∧
        declaration.generatedName naming key = name := by
  rw [get?_aliasesOf] at h
  obtain ⟨⟨key', declaration⟩, hmem, hentry⟩ :=
    List.mem_filterMap.mp (OrderedMap.mem_of_get? h)
  dsimp only at hentry
  split at hentry
  · next hcond =>
    cases hentry
    have hnew : ¬ OrderedMap.contains declared (declaration.generatedName naming key) = true := by
      simp only [Bool.and_eq_true, Bool.not_eq_true'] at hcond
      simp [hcond.2]
    exact ⟨fun hmem => hnew (OrderedMap.contains_iff.mpr hmem), declaration, hmem, rfl⟩
  · cases hentry

theorem exists_get?_aliasesOf {declared : List (String × Declaration)} {key : String}
    {declaration : Declaration} (hmem : (key, declaration) ∈ declared)
    (hnew : declaration.generatedName naming key ∉ declared.map Prod.fst) :
    ∃ key', OrderedMap.get? (aliasesOf naming declared) (declaration.generatedName naming key)
      = some key' := by
  rw [get?_aliasesOf]
  refine OrderedMap.exists_get?_of_mem (List.mem_map.mpr
    ⟨(declaration.generatedName naming key, key), List.mem_filterMap.mpr
      ⟨(key, declaration), hmem, ?_⟩, rfl⟩)
  -- a name that nothing is declared under differs from the declared one
  have hne : declaration.generatedName naming key ≠ key := by
    intro heq
    rw [heq] at hnew
    exact hnew (List.mem_map.mpr ⟨(key, declaration), hmem, rfl⟩)
  have habsent : OrderedMap.contains declared (declaration.generatedName naming key) = false := by
    rw [Bool.eq_false_iff]
    exact fun hheld => hnew (OrderedMap.contains_iff.mp hheld)
  simp [hne, habsent]

/-! ### What names stand for -/

/-- A name that a sheet sees something under is no alias. -/
theorem get?_aliases_eq_none (h : ofSchemas schema others naming = .ok scope) {name : String}
    {declaration : Declaration} (hsees : schema.sees? others name = some declaration) :
    OrderedMap.get? scope.aliases name = none := by
  cases halias : OrderedMap.get? scope.aliases name with
  | none => rfl
  | some key =>
    rw [(ofSchemas_eq_ok h).2.2] at halias
    have hunseen := (not_mem_names_iff h).mp (of_get?_aliasesOf halias).1
    rw [hsees] at hunseen
    cases hunseen

/-- **No alias hides a declared name.** -/
theorem declaredName_of_sees? (h : ofSchemas schema others naming = .ok scope) {name : String}
    {declaration : Declaration} (hsees : schema.sees? others name = some declaration) :
    scope.declaredName name = name := by
  rw [declaredName, get?_aliases_eq_none h hsees, Option.getD_none]

theorem meaning?_of_sees? (h : ofSchemas schema others naming = .ok scope) {name : String}
    {declaration : Declaration} (hsees : schema.sees? others name = some declaration) :
    scope.meaning? name = some (name, declaration) := by
  rw [meaning?, declaredName_of_sees? h hsees, get?_declared h, hsees, Option.map_some]

theorem sees?_of_meaning? (h : ofSchemas schema others naming = .ok scope) {name key : String}
    {declaration : Declaration} (hmeaning : scope.meaning? name = some (key, declaration)) :
    schema.sees? others key = some declaration := by
  obtain ⟨found, hfound, heq⟩ := Option.map_eq_some_iff.mp hmeaning
  cases heq
  rw [← get?_declared h, hfound]

/-- **A name stands for nothing** exactly when the sheet sees neither a declaration under it
nor one that is generated under it. -/
theorem meaning?_eq_none_iff (h : ofSchemas schema others naming = .ok scope) {name : String} :
    scope.meaning? name = none ↔ schema.sees? others name = none ∧
      ∀ key declaration, schema.sees? others key = some declaration →
        declaration.generatedName naming key ≠ name := by
  have haliases := (ofSchemas_eq_ok h).2.2
  constructor
  · intro hmeaning
    have hunseen : schema.sees? others name = none := by
      cases hsees : schema.sees? others name with
      | none => rfl
      | some declaration =>
        rw [meaning?_of_sees? h hsees] at hmeaning
        cases hmeaning
    refine ⟨hunseen, ?_⟩
    rintro key declaration hsees rfl
    obtain ⟨key', halias⟩ := exists_get?_aliasesOf ((mem_declared_iff h).mpr hsees)
      ((not_mem_names_iff h).mpr hunseen)
    obtain ⟨-, found, hfound, -⟩ := of_get?_aliasesOf halias
    -- the alias leads to a declaration, so the name stands for something
    rw [meaning?, declaredName, haliases, halias, Option.getD_some, get?_declared h,
      (mem_declared_iff h).mp hfound] at hmeaning
    cases hmeaning
  · rintro ⟨hunseen, hgenerated⟩
    have hnone : OrderedMap.get? scope.aliases name = none := by
      cases halias : OrderedMap.get? scope.aliases name with
      | none => rfl
      | some key =>
        rw [haliases] at halias
        obtain ⟨-, declaration, hmem, heq⟩ := of_get?_aliasesOf halias
        exact absurd heq (hgenerated key declaration ((mem_declared_iff h).mp hmem))
    rw [meaning?, declaredName, hnone, Option.getD_none, get?_declared h, hunseen, Option.map_none]

/-! ### Records and enumerations in scope -/

theorem record?_eq_some_iff (h : ofSchemas schema others naming = .ok scope) {name : String}
    {record : RecordDecl} :
    scope.record? name = some record ↔ schema.sees? others name = some (.record record) := by
  rw [record?, get?_declared h]
  cases schema.sees? others name with
  | none => simp
  | some declaration => cases declaration <;> simp [Declaration.record?]

theorem get?_enums (h : ofSchemas schema others naming = .ok scope) {name : String}
    {block : EnumDecl} (hsees : schema.sees? others name = some (.enum block)) :
    OrderedMap.get? scope.enums name = some block :=
  OrderedMap.get?_filterMap_of_nodup (fun entry : String × Declaration => entry.2.enum?)
    (nodup_declared h) ((mem_declared_iff h).mpr hsees)

/-! ### Resolving types -/

/-- A name resolves to what it stands for. -/
theorem resolve_named (scope : Scope) (cell : Cell) (name : String) :
    scope.resolve cell (.named name) = match scope.meaning? name with
      | some (key, .enum _) => .ok (.enum key)
      | some (key, .record _) => .ok (.record key)
      | none => .error (.undefinedType name cell) := by
  rw [resolve.eq_def, meaning?]
  dsimp only
  cases OrderedMap.get? scope.declared (scope.declaredName name) with
  | none => rfl
  | some declaration => cases declaration <;> rfl

/-- A type does not resolve exactly when the name in it stands for nothing. -/
theorem resolve_eq_error_iff {cell : Cell} {fault : Fault} : ∀ {type : WrittenType},
    scope.resolve cell type = .error fault ↔ ∃ name, type.leaf = .named name ∧
      scope.meaning? name = none ∧ fault = .undefinedType name cell := by
  intro type
  induction type with
  | scalar s => simp [resolve, WrittenType.leaf]
  -- what wraps a type does not fail by itself
  | list element ih => rw [resolve, map_eq_error, ih]; rfl
  | nullable inner ih => rw [resolve, map_eq_error, ih]; rfl
  | named name =>
    rw [resolve_named]
    constructor
    · intro h
      split at h
      · cases h
      · cases h
      · next hnone => cases h; exact ⟨name, rfl, hnone, rfl⟩
    · rintro ⟨_, hname, hnone, rfl⟩
      cases hname
      rw [hnone]

/-- **What a type that resolves names**: nothing, or the one declaration that the name in it
stands for. -/
theorem resolve_cases {cell : Cell} : ∀ {type : WrittenType} {resolved : ResolvedType},
    scope.resolve cell type = .ok resolved →
      ((∃ s, type.leaf = .scalar s) ∧ ∀ kind, resolved.namesOf kind = []) ∨
      ∃ name key declaration, type.leaf = .named name ∧
        scope.meaning? name = some (key, declaration) ∧
        ∀ kind, resolved.namesOf kind = if declaration.kind = kind then [key] else [] := by
  intro type
  induction type with
  | scalar s =>
    intro resolved h
    cases h
    exact Or.inl ⟨⟨s, rfl⟩, fun kind => by cases kind <;> rfl⟩
  | list element ih =>
    intro resolved h
    obtain ⟨inner, hinner, rfl⟩ := map_eq_ok.mp h
    -- a list names what its elements name
    have hcases := ih hinner
    exact hcases
  | nullable inner ih =>
    intro resolved h
    obtain ⟨inner', hinner, rfl⟩ := map_eq_ok.mp h
    have hcases := ih hinner
    exact hcases
  | named name =>
    intro resolved h
    rw [resolve_named] at h
    right
    split at h
    · next key block hmeaning =>
      cases h
      exact ⟨name, key, _, rfl, hmeaning, fun kind => by cases kind <;> rfl⟩
    · next key record hmeaning =>
      cases h
      exact ⟨name, key, _, rfl, hmeaning, fun kind => by cases kind <;> rfl⟩
    · cases h

/-- The name in a type that resolves stands for the declaration that the resolved type
names. -/
theorem meaning?_of_resolve {cell : Cell} {type : WrittenType} {resolved : ResolvedType}
    (h : scope.resolve cell type = .ok resolved) {name : String}
    (hname : type.leaf = .named name) :
    ∃ key declaration, scope.meaning? name = some (key, declaration) ∧
      key ∈ resolved.namesOf declaration.kind := by
  rcases resolve_cases h with ⟨⟨s, hs⟩, -⟩ | ⟨name', key, declaration, hname', hmeaning, hnames⟩
  · rw [hname] at hs
    cases hs
  · rw [hname] at hname'
    cases hname'
    refine ⟨key, declaration, hmeaning, ?_⟩
    rw [hnames, if_pos rfl]
    exact List.mem_singleton.mpr rfl

/-- What a resolved type names is what a name in a type cell stands for. -/
theorem exists_of_mem_namesOf {cell : Cell} {type : WrittenType} {resolved : ResolvedType}
    (h : scope.resolve cell type = .ok resolved) {kind : TypeKind} {key : String}
    (hkey : key ∈ resolved.namesOf kind) :
    ∃ name declaration, declaration.kind = kind ∧ type.leaf = .named name ∧
      scope.meaning? name = some (key, declaration) := by
  rcases resolve_cases h with ⟨-, hnames⟩ | ⟨name, found, declaration, hname, hmeaning, hnames⟩
  · simp [hnames] at hkey
  · rw [hnames] at hkey
    split at hkey
    · next hkind =>
      obtain rfl := List.mem_singleton.mp hkey
      exact ⟨name, declaration, hkind, hname, hmeaning⟩
    · cases hkey

/-- Scopes that agree on the name in a type resolve it alike. -/
theorem resolve_congr {scope' : Scope} {cell : Cell} : ∀ {type : WrittenType},
    (∀ name, type.leaf = .named name → scope'.meaning? name = scope.meaning? name) →
      scope'.resolve cell type = scope.resolve cell type := by
  intro type
  induction type with
  | scalar s => intro _; rfl
  | list element ih => intro h; rw [resolve, resolve, ih h]
  | nullable inner ih => intro h; rw [resolve, resolve, ih h]
  | named name => intro h; rw [resolve_named, resolve_named, h name rfl]

end Scope
end TypedSheets

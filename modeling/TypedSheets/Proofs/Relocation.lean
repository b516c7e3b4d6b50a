import TypedSheets.Catalog.Basic
import TypedSheets.Proofs.OrderedMap
import TypedSheets.Proofs.Result

/-!
# Declarations at other cells

Declarations keep the cells that they were read from, and faults name such cells.  Nothing
is decided by them: a sheet whose cells are all exchanged for others has the same catalog,
at those cells, or is refused for the same fault, at those cells.  Here are the steps from a
schema to its catalog, each of which carries cells along.

## Main definitions

* `Schema.relocate`, `Catalog.relocate`, `Fault.relocate` — all cells exchanged for others.
* `relocated` — a result, or a fault, at other cells.
* `forget` — all cells exchanged for one.

## Main results

* `relocated_bind`, `mapM_relocated` — results at other cells, one step at a time.
* `Scope.ofSchemas_relocate`, `Catalog.resolveRecords_relocate` — names and records.
* `Catalog.ofSchemas_relocate` — **catalogs carry cells along.**
-/

namespace TypedSheets

/-! ### Exchanging cells -/

section Definitions

variable (f : Cell → Cell)

def Member.relocate (member : Member) : Member := { member with origin := f member.origin }

def EnumDecl.relocate (block : EnumDecl) : EnumDecl :=
  { block with members := block.members.map (Member.relocate f) }

def FieldDecl.relocate (field : FieldDecl) : FieldDecl :=
  { field with origin := f field.origin, typeCell := f field.typeCell }

def RecordDecl.relocate (block : RecordDecl) : RecordDecl :=
  { block with fields := block.fields.map (FieldDecl.relocate f) }

def ConstantDecl.relocate (field : ConstantDecl) : ConstantDecl :=
  { field with
    origin := f field.origin, typeCell := f field.typeCell, valueCell := f field.valueCell }

def EntityField.relocate (field : EntityField) : EntityField :=
  { field with origin := f field.origin, typeCell := f field.typeCell }

def DesignDecl.relocate (block : DesignDecl) : DesignDecl :=
  { block with fields := block.fields.map (EntityField.relocate f) }

def BlockContent.relocate : BlockContent → BlockContent
  | description text => description text
  | enum block => enum (block.relocate f)
  | record block => record (block.relocate f)
  | interface => interface
  | constant fields => constant (fields.map (ConstantDecl.relocate f))
  | design block => design (block.relocate f)

def Block.relocate (block : Block) : Block :=
  { block with origin := f block.origin, body := block.body.relocate f }

/-- A schema with its cells exchanged. -/
def Schema.relocate (schema : Schema) : Schema :=
  { schema with blocks := schema.blocks.map (Block.relocate f) }

def Declaration.relocate : Declaration → Declaration
  | enum block => enum (block.relocate f)
  | record block => record (block.relocate f)

/-- Declarations by name, with their cells exchanged. -/
def relocateNamed (entries : List (String × Declaration)) : List (String × Declaration) :=
  entries.map fun entry => (entry.1, entry.2.relocate f)

def Scope.relocate (scope : Scope) : Scope :=
  { scope with declared := relocateNamed f scope.declared }

/-- A catalog with its cells exchanged. -/
def Catalog.relocate (catalog : Catalog) : Catalog :=
  { catalog with enums := catalog.enums.map fun entry => (entry.1, entry.2.relocate f) }

/-- A fault with its cells exchanged. -/
def Fault.relocate : Fault → Fault
  | badRange error cell => badRange error (f cell)
  | unknownBlock tag cell => unknownBlock tag (f cell)
  | repeatedBlock kind cell first => repeatedBlock kind (f cell) (f first)
  | missingColumn name block => missingColumn name (f block)
  | unknownColumn text known cell => unknownColumn text known (f cell)
  | repeatedColumn text cell first => repeatedColumn text (f cell) (f first)
  | blankElement column cell => blankElement column (f cell)
  | missingName kind cell => missingName kind (f cell)
  | badFlag text column cell => badFlag text column (f cell)
  | notNullable type cell => notNullable type (f cell)
  | missingText cell => missingText (f cell)
  | badType text cell => badType text (f cell)
  | undefinedType name cell => undefinedType name (f cell)
  | missingKey block => missingKey (f block)
  | repeatedElement name cell first => repeatedElement name (f cell) (f first)
  | repeatedType name cell first => repeatedType name (f cell) (f first)
  | notAnInteger text backing cell => notAnInteger text backing (f cell)
  | outOfRange value member backing cell => outOfRange value member backing (f cell)
  | missingNameRow marker design => missingNameRow marker (f design)
  | missingPathRow marker => missingPathRow (f marker)
  | missingDataRow nameMarker => missingDataRow (f nameMarker)
  | strayRow cell marker => strayRow (f cell) (f marker)
  | unexpectedDataRow marker => unexpectedDataRow (f marker)
  | badPath path reason cell => badPath path reason (f cell)
  | unreachable path expected cell => unreachable path expected (f cell)
  | mismatch error cell => mismatch error (f cell)
  | constantMismatch name error cell typeCell =>
    constantMismatch name error (f cell) (f typeCell)
  | missingValue path cell => missingValue path (f cell)
  | repeatedKey key cell first => repeatedKey key (f cell) (f first)

end Definitions

/-! ### Results at other cells -/

section Results

variable {α β γ δ : Type} {f : Cell → Cell}

/-- A result with `g` done to it, or a fault with its cells exchanged. -/
def relocated (f : Cell → Cell) (g : α → β) : Except Fault α → Except Fault β
  | .ok a => .ok (g a)
  | .error fault => .error (fault.relocate f)

theorem toOption_relocated (g : α → β) (x : Except Fault α) :
    (relocated f g x).toOption = x.toOption.map g := by
  cases x with
  | error fault => rfl
  | ok a => rfl

theorem toOption_relocated_id (x : Except Fault α) :
    (relocated f id x).toOption = x.toOption := by
  rw [toOption_relocated, Option.map_id, id]

/-- Two runs of two steps, if the second steps are related after the first ones. -/
theorem relocated_bind {g : α → β} {h : γ → δ} {x : Except Fault α} {k : α → Except Fault γ}
    {k' : β → Except Fault δ} (hk : ∀ a, x = .ok a → k' (g a) = relocated f h (k a)) :
    relocated f g x >>= k' = relocated f h (x >>= k) := by
  cases x with
  | error fault => rfl
  | ok a => exact hk a rfl

theorem relocated_map {g : α → β} {h : γ → δ} {k : α → γ} {k' : β → δ}
    (hk : ∀ a, k' (g a) = h (k a)) (x : Except Fault α) :
    (relocated f g x).map k' = relocated f h (x.map k) := by
  cases x with
  | error fault => rfl
  | ok a => exact congrArg Except.ok (hk a)

theorem mapM_relocated {g : α → β} {h : γ → δ} {k : α → Except Fault γ} {k' : β → Except Fault δ} :
    ∀ {xs : List α}, (∀ a ∈ xs, k' (g a) = relocated f h (k a)) →
      (xs.map g).mapM k' = relocated f (List.map h) (xs.mapM k) := by
  intro xs
  induction xs with
  | nil => intro _; rfl
  | cons a xs ih =>
    intro hk
    rw [List.forall_mem_cons] at hk
    rw [List.map_cons, List.mapM_cons, List.mapM_cons, hk.1, ih hk.2]
    refine relocated_bind fun c _ => ?_
    exact relocated_bind fun cs _ => rfl

theorem mapM_relocated_id {g : α → β} {k : α → Except Fault γ} {k' : β → Except Fault γ}
    {xs : List α} (hk : ∀ a ∈ xs, k' (g a) = relocated f id (k a)) :
    (xs.map g).mapM k' = relocated f id (xs.mapM k) := by
  rw [mapM_relocated hk, List.map_id_fun]

end Results

/-! ### Cells left in place -/

theorem Fault.relocate_id (fault : Fault) : fault.relocate id = fault := by
  cases fault <;> rfl

theorem BlockContent.relocate_id (body : BlockContent) : body.relocate id = body := by
  have hmember : Member.relocate id = id := rfl
  have hfield : FieldDecl.relocate id = id := rfl
  have hconstant : ConstantDecl.relocate id = id := rfl
  have hentity : EntityField.relocate id = id := rfl
  cases body with
  | description _ | interface => rfl
  | «enum» block => simp [relocate, EnumDecl.relocate, hmember]
  | record block => simp [relocate, RecordDecl.relocate, hfield]
  | constant fields => simp [relocate, hconstant]
  | design block => simp [relocate, DesignDecl.relocate, hentity]

theorem Block.relocate_id (block : Block) : block.relocate id = block := by
  rw [relocate, BlockContent.relocate_id]
  rfl

/-- Nothing changes where neither cells nor results do. -/
theorem relocated_id {α : Type} {g : α → α} (hg : ∀ a, g a = a) (x : Except Fault α) :
    relocated id g x = x := by
  cases x with
  | error fault => exact congrArg Except.error fault.relocate_id
  | ok a => exact congrArg Except.ok (hg a)

/-! ### Forgetting cells -/

/-- All cells exchanged for one, so that no place is told from another. -/
def forget (_ : Cell) : Cell := default

theorem BlockContent.forget_relocate (f : Cell → Cell) (body : BlockContent) :
    (body.relocate f).relocate forget = body.relocate forget := by
  cases body with
  | description _ | interface => rfl
  | «enum» block =>
    simp [relocate, EnumDecl.relocate, Member.relocate, forget, Function.comp_def]
  | record block =>
    simp [relocate, RecordDecl.relocate, FieldDecl.relocate, forget, Function.comp_def]
  | constant fields =>
    simp [relocate, ConstantDecl.relocate, forget, Function.comp_def]
  | design block =>
    simp [relocate, DesignDecl.relocate, EntityField.relocate, forget, Function.comp_def]

/-- Where the cells were before they are forgotten does not matter. -/
theorem Schema.forget_relocate (f : Cell → Cell) (schema : Schema) :
    (schema.relocate f).relocate forget = schema.relocate forget := by
  simp [relocate, Block.relocate, BlockContent.forget_relocate, forget, Function.comp_def]

/-! ### Declarations of a schema -/

namespace Schema

variable (f : Cell → Cell) (schema : Schema)

/-- What is picked from the blocks of a schema is carried along if it is for each block. -/
theorem filterMap_relocate {α : Type} {pick : Block → Option α} {g : α → α}
    (hpick : ∀ block, pick (block.relocate f) = (pick block).map g) :
    (schema.relocate f).blocks.filterMap pick = (schema.blocks.filterMap pick).map g := by
  rw [relocate, List.filterMap_map, List.map_filterMap]
  exact congrArg (List.filterMap · schema.blocks) (funext hpick)

theorem findSome?_relocate {α : Type} {pick : Block → Option α} {g : α → α}
    (hpick : ∀ block, pick (block.relocate f) = (pick block).map g) :
    (schema.relocate f).blocks.findSome? pick = (schema.blocks.findSome? pick).map g := by
  rw [relocate, List.findSome?_map, List.map_findSome?]
  exact congrArg (List.findSome? · schema.blocks) (funext hpick)

theorem enums_relocate :
    (schema.relocate f).enums
      = schema.enums.map fun entry => (entry.1.relocate f, entry.2.relocate f) := by
  refine schema.filterMap_relocate f fun block => ?_
  cases hbody : block.body <;> simp [Block.relocate, BlockContent.relocate, hbody]

theorem records_relocate :
    (schema.relocate f).records
      = schema.records.map fun entry => (entry.1.relocate f, entry.2.relocate f) := by
  refine schema.filterMap_relocate f fun block => ?_
  cases hbody : block.body <;> simp [Block.relocate, BlockContent.relocate, hbody]

theorem design?_relocate :
    (schema.relocate f).design?
      = schema.design?.map fun entry => (entry.1.relocate f, entry.2.relocate f) := by
  refine schema.findSome?_relocate f fun block => ?_
  cases hbody : block.body <;> simp [Block.relocate, BlockContent.relocate, hbody]

theorem constants?_relocate :
    (schema.relocate f).constants?
      = schema.constants?.map fun fields => fields.map (ConstantDecl.relocate f) := by
  refine schema.findSome?_relocate f fun block => ?_
  cases hbody : block.body <;> simp [Block.relocate, BlockContent.relocate, hbody]

theorem description?_relocate : (schema.relocate f).description? = schema.description? := by
  rw [description?, description?, relocate, List.findSome?_map]
  congr 1
  funext block
  cases hbody : block.body <;> simp [Block.relocate, BlockContent.relocate, hbody]

theorem interfaces_relocate :
    (schema.relocate f).interfaces = schema.interfaces.map (Block.relocate f) := by
  have hkind : ∀ block : Block, (block.relocate f).kind = block.kind := by
    intro block
    cases hbody : block.body <;>
      simp [Block.relocate, Block.kind, BlockContent.relocate, BlockContent.kind, hbody]
  rw [interfaces, interfaces, relocate, List.filter_map]
  simp only [Function.comp_def, hkind]

theorem declarations_relocate :
    (schema.relocate f).declarations
      = schema.declarations.map fun entry => (entry.1.relocate f, entry.2.relocate f) := by
  simp [declarations, enums_relocate, records_relocate, Declaration.relocate, Function.comp_def]

end Schema

theorem DesignDecl.keys_relocate (f : Cell → Cell) (design : DesignDecl) :
    (design.relocate f).keys = design.keys.map (EntityField.relocate f) := by
  rw [keys, keys, relocate, List.filter_map]
  rfl

/-! ### Names in scope -/

namespace Scope

variable (f : Cell → Cell)

@[simp] theorem isGlobal_relocate (declaration : Declaration) :
    (declaration.relocate f).isGlobal = declaration.isGlobal := by
  cases declaration <;> rfl

@[simp] theorem generatedName_relocate (naming : NameStyle) (name : String)
    (declaration : Declaration) :
    (declaration.relocate f).generatedName naming name = declaration.generatedName naming name := by
  cases declaration <;> rfl

theorem contains_relocateNamed (entries : List (String × Declaration)) (name : String) :
    OrderedMap.contains (relocateNamed f entries) name = OrderedMap.contains entries name := by
  simp [OrderedMap.contains, relocateNamed, Function.comp_def]

theorem insertNew_relocateNamed (entries : List (String × Declaration)) (name : String)
    (declaration : Declaration) :
    OrderedMap.insertNew (relocateNamed f entries) name (declaration.relocate f)
      = relocateNamed f (OrderedMap.insertNew entries name declaration) := by
  rw [OrderedMap.insertNew, OrderedMap.insertNew, contains_relocateNamed]
  split
  · rfl
  · simp [relocateNamed]

theorem ownNames_relocate : ∀ (entries : List (Block × Declaration)) (seen : List (String × Cell)),
    ownNames (entries.map fun entry => (entry.1.relocate f, entry.2.relocate f))
        (seen.map fun entry => (entry.1, f entry.2))
      = relocated f (relocateNamed f) (ownNames entries seen) := by
  intro entries
  induction entries with
  | nil => intro seen; rfl
  | cons entry entries ih =>
    intro seen
    obtain ⟨block, declaration⟩ := entry
    have hlabel : (block.relocate f).label = block.label := rfl
    have horigin : (block.relocate f).origin = f block.origin := rfl
    -- the places seen are moved along with the blocks
    have hseen := ih (OrderedMap.insert seen block.label block.origin)
    rw [← OrderedMap.insert_map_snd] at hseen
    rw [List.map_cons, ownNames, ownNames, hlabel, horigin, OrderedMap.get?_map_snd]
    cases OrderedMap.get? seen block.label with
    | some first => rfl
    | none =>
      rw [Option.map_none]
      simp only [hseen]
      exact relocated_bind fun names _ => rfl

theorem globals_relocate (sheet : String) (others : List Schema) :
    globals sheet (others.map (Schema.relocate f)) = relocateNamed f (globals sheet others) := by
  rw [globals, globals, List.filter_map, List.flatMap_map, relocateNamed, List.map_filterMap]
  simp only [Schema.declarations_relocate]
  rw [← List.map_flatMap, List.filterMap_map]
  congr 1
  funext entry
  simp only [Function.comp_apply, isGlobal_relocate]
  split
  · rfl
  · rfl

theorem foldl_insertNew_relocateNamed (pairs : List (String × Declaration)) :
    ∀ entries : List (String × Declaration),
      (relocateNamed f pairs).foldl (fun declared (name, declaration) =>
          OrderedMap.insertNew declared name declaration) (relocateNamed f entries)
        = relocateNamed f (pairs.foldl (fun declared (name, declaration) =>
          OrderedMap.insertNew declared name declaration) entries) := by
  induction pairs with
  | nil => intro entries; rfl
  | cons pair pairs ih =>
    intro entries
    obtain ⟨name, declaration⟩ := pair
    rw [List.foldl_cons, ← ih, ← insertNew_relocateNamed]
    rfl

theorem aliasesOf_relocate (naming : NameStyle) (declared : List (String × Declaration)) :
    aliasesOf naming (relocateNamed f declared) = aliasesOf naming declared := by
  rw [aliasesOf, aliasesOf]
  simp only [contains_relocateNamed]
  rw [relocateNamed, List.foldl_map]
  simp only [generatedName_relocate]

/-- Scopes carry cells along. -/
theorem ofSchemas_relocate (schema : Schema) (others : List Schema) (naming : NameStyle) :
    ofSchemas (schema.relocate f) (others.map (Schema.relocate f)) naming
      = relocated f (Scope.relocate f) (ofSchemas schema others naming) := by
  have hown := ownNames_relocate f schema.declarations []
  rw [← Schema.declarations_relocate] at hown
  rw [ofSchemas, ofSchemas]
  simp only [List.map_nil] at hown
  rw [hown]
  refine relocated_bind fun own _ => ?_
  have hsheet : (schema.relocate f).sheet = schema.sheet := rfl
  simp only [hsheet, globals_relocate, foldl_insertNew_relocateNamed, aliasesOf_relocate]
  rfl

variable (scope : Scope)

theorem get?_declared_relocate (name : String) :
    OrderedMap.get? (scope.relocate f).declared name
      = (OrderedMap.get? scope.declared name).map (Declaration.relocate f) :=
  OrderedMap.get?_map_snd _ _ _

theorem record?_relocate (name : String) :
    (scope.relocate f).record? name = (scope.record? name).map (RecordDecl.relocate f) := by
  rw [record?, record?, get?_declared_relocate]
  cases OrderedMap.get? scope.declared name with
  | none => rfl
  | some declaration => cases declaration <;> rfl

theorem enums_relocate :
    (scope.relocate f).enums = scope.enums.map fun entry => (entry.1, entry.2.relocate f) := by
  rw [enums, enums, relocate, relocateNamed, List.filterMap_map, List.map_filterMap]
  congr 1
  funext entry
  obtain ⟨name, declaration⟩ := entry
  cases declaration <;> rfl

theorem recordCount_relocate : (scope.relocate f).recordCount = scope.recordCount := by
  rw [recordCount, recordCount, relocate, relocateNamed, List.filter_map, List.length_map]
  congr 2
  funext entry
  obtain ⟨name, declaration⟩ := entry
  cases declaration <;> rfl

/-- A type is resolved alike, whatever the cells. -/
theorem resolve_relocate (cell : Cell) : ∀ type : WrittenType,
    (scope.relocate f).resolve (f cell) type = relocated f id (scope.resolve cell type)
  | .scalar _ => rfl
  | .list element => by
    rw [resolve, resolve, resolve_relocate cell element]
    exact relocated_map (fun _ => by rfl) _
  | .nullable inner => by
    rw [resolve, resolve, resolve_relocate cell inner]
    exact relocated_map (fun _ => by rfl) _
  | .named name => by
    have hname : (scope.relocate f).declaredName name = scope.declaredName name := rfl
    rw [resolve, resolve, hname]
    simp only [get?_declared_relocate]
    cases OrderedMap.get? scope.declared (scope.declaredName name) with
    | none => rfl
    | some declaration => cases declaration <;> rfl

end Scope

/-! ### Catalogs -/

namespace Catalog

variable (f : Cell → Cell) (scope : Scope) (naming : NameStyle)

/-- A field is made of its resolved type, which is the same at other cells. -/
theorem resolve_bind_relocate (cell : Cell) (type : WrittenType) (k : ResolvedType → Field) :
    ((scope.relocate f).resolve (f cell) type >>= fun resolved => Except.ok (k resolved))
      = relocated f id (scope.resolve cell type >>= fun resolved => .ok (k resolved)) := by
  rw [Scope.resolve_relocate]
  exact relocated_bind fun _ _ => rfl

theorem designField_relocate (field : EntityField) :
    designField (scope.relocate f) naming (field.relocate f)
      = relocated f id (designField scope naming field) :=
  resolve_bind_relocate f scope field.typeCell field.type _

theorem constantField_relocate (field : ConstantDecl) :
    constantField (scope.relocate f) naming (field.relocate f)
      = relocated f id (constantField scope naming field) :=
  resolve_bind_relocate f scope field.typeCell field.type _

theorem recordField_relocate (field : FieldDecl) :
    recordField (scope.relocate f) naming (field.relocate f)
      = relocated f id (recordField scope naming field) :=
  resolve_bind_relocate f scope field.typeCell field.type _

theorem recordShape_relocate (record : RecordDecl) :
    recordShape (scope.relocate f) naming (record.relocate f)
      = relocated f id (recordShape scope naming record) := by
  rw [recordShape, recordShape, RecordDecl.relocate,
    mapM_relocated_id fun field _ => recordField_relocate f scope naming field]
  exact relocated_bind fun fields _ => rfl

theorem nextRecord?_relocate (resolved : List (String × Shape)) (pending : List String) :
    nextRecord? (scope.relocate f) resolved pending
      = (nextRecord? scope resolved pending).map fun next => (next.1, next.2.relocate f) := by
  rw [nextRecord?, nextRecord?, List.map_findSome?]
  congr 1
  funext name
  simp only [Function.comp_apply, Scope.record?_relocate]
  split
  · rfl
  · cases scope.record? name <;> rfl

theorem resolveRecords_relocate : ∀ (rounds : Nat) (resolved : List (String × Shape))
    (pending : List String),
    resolveRecords (scope.relocate f) naming rounds resolved pending
      = relocated f id (resolveRecords scope naming rounds resolved pending) := by
  intro rounds
  induction rounds with
  | zero => intro resolved pending; rfl
  | succ rounds ih =>
    intro resolved pending
    rw [resolveRecords, resolveRecords, nextRecord?_relocate]
    -- the next record is chosen by names alone
    cases nextRecord? scope resolved pending with
    | none => rfl
    | some next =>
      obtain ⟨name, record⟩ := next
      rw [Option.map_some]
      simp only [recordShape_relocate]
      exact relocated_bind fun shape _ => ih _ _

variable (schema : Schema)

theorem entityShape_relocate :
    entityShape (scope.relocate f) naming (schema.relocate f)
      = relocated f id (entityShape scope naming schema) := by
  rw [entityShape, entityShape, Schema.design?_relocate]
  cases schema.design? with
  | none => rfl
  | some entry =>
    obtain ⟨block, design⟩ := entry
    rw [Option.map_some]
    have hfields : (design.relocate f).fields.mapM (designField (scope.relocate f) naming)
        = relocated f id (design.fields.mapM (designField scope naming)) :=
      mapM_relocated_id fun field _ => designField_relocate f scope naming field
    simp only [hfields]
    exact relocated_bind fun fields _ => rfl

theorem constantShape_relocate :
    constantShape (scope.relocate f) naming (schema.relocate f)
      = relocated f id (constantShape scope naming schema) := by
  have hfields : (schema.relocate f).constants?.getD []
      = (schema.constants?.getD []).map (ConstantDecl.relocate f) := by
    rw [Schema.constants?_relocate]
    cases schema.constants? <;> rfl
  rw [constantShape, constantShape, hfields,
    mapM_relocated_id fun field _ => constantField_relocate f scope naming field]
  exact relocated_bind fun fields _ => rfl

theorem pendingRecords_relocate (entity : Option Shape) (constants : Shape) :
    pendingRecords (schema.relocate f) entity constants
      = pendingRecords schema entity constants := by
  rw [pendingRecords, pendingRecords, Schema.records_relocate, List.map_map]
  rfl

/-- **Catalogs carry cells along.** -/
theorem ofSchemas_relocate (others : List Schema) :
    ofSchemas (schema.relocate f) (others.map (Schema.relocate f)) naming
      = relocated f (Catalog.relocate f) (ofSchemas schema others naming) := by
  rw [ofSchemas, ofSchemas, Scope.ofSchemas_relocate]
  refine relocated_bind fun scope _ => ?_
  rw [entityShape_relocate]
  refine relocated_bind fun entity _ => ?_
  rw [constantShape_relocate]
  refine relocated_bind fun constants _ => ?_
  simp only [id, pendingRecords_relocate, Scope.recordCount_relocate, resolveRecords_relocate]
  refine relocated_bind fun records _ => ?_
  rw [Scope.enums_relocate]
  rfl

/-- **Schemas that differ in cells only have catalogs that do**, or both have none. -/
theorem toOption_ofSchemas_congr {schema schema' : Schema} {others others' : List Schema}
    (hschema : schema'.relocate f = schema.relocate f)
    (hothers : others'.map (Schema.relocate f) = others.map (Schema.relocate f)) :
    (ofSchemas schema' others' naming).toOption.map (Catalog.relocate f)
      = (ofSchemas schema others naming).toOption.map (Catalog.relocate f) := by
  rw [← toOption_relocated, ← toOption_relocated, ← ofSchemas_relocate, ← ofSchemas_relocate,
    hschema, hothers]

end Catalog
end TypedSheets

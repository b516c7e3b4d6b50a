import TypedSheets.Proofs.AgreeingCatalogs
import TypedSheets.Proofs.Relocation

/-!
# Data and code at other cells

What a sheet is compiled to has no cells in it, so exchanging the cells of a schema and of
its catalog changes nothing: values are read and written alike, and the generated code is
the same.  Of a catalog only the enumerations have cells, and a text of one is looked up among
names and numbers; so a catalog answers alike at other cells.

## Main results

* `Catalog.agrees_relocate` — **catalogs.**
* `Catalog.readConstants_relocate` — constants.
* `CSharp.sheetFile_relocate` — **generated code.**
-/

namespace TypedSheets

namespace Catalog

variable (f : Cell → Cell) (catalog : Catalog)

/-! ### Enumerations -/

theorem enum?_relocate (name : String) :
    (catalog.relocate f).enum? name = (catalog.enum? name).map (EnumDecl.relocate f) :=
  OrderedMap.get?_map_snd _ _ _

/-- Members are looked for by what is no cell. -/
theorem find?_members_relocate {p : Member → Bool} (hp : ∀ member, p (member.relocate f) = p member)
    (block : EnumDecl) :
    (block.relocate f).members.find? p = (block.members.find? p).map (Member.relocate f) := by
  rw [EnumDecl.relocate, List.find?_map]
  exact congrArg (fun q => (block.members.find? q).map _) (funext hp)

theorem numberValue?_relocate (block : EnumDecl) (n : Int) :
    (catalog.relocate f).numberValue? (block.relocate f) n = catalog.numberValue? block n := by
  rw [numberValue?, numberValue?, find?_members_relocate f fun _ => rfl]
  cases block.members.find? fun member => decide (member.value = n) <;> rfl

theorem ofEnumText?_relocate (name text : String) :
    (catalog.relocate f).ofEnumText? name text = catalog.ofEnumText? name text := by
  rw [ofEnumText?, ofEnumText?, enum?_relocate]
  cases catalog.enum? name with
  | none => rfl
  | some block =>
    have hnaming : (catalog.relocate f).naming = catalog.naming := rfl
    simp only [Option.map_some, Option.bind_eq_bind, Option.bind_some, numberValue?_relocate]
    rw [hnaming, find?_members_relocate f fun _ => rfl]
    cases block.members.find? _ <;> rfl

theorem enumZero_relocate (name : String) :
    (catalog.relocate f).enumZero name = catalog.enumZero name := by
  rw [enumZero, enumZero, enum?_relocate]
  cases catalog.enum? name with
  | none => rfl
  | some block =>
    simp only [Option.map_some, Option.bind_some]
    rw [find?_members_relocate f fun _ => rfl]
    cases block.members.find? _ <;> rfl

/-- **A catalog answers alike whatever its cells are.** -/
theorem agrees_relocate : catalog.Agrees (catalog.relocate f) where
  naming := rfl
  entity := rfl
  constants := rfl
  record? := rfl
  ofEnumText? := funext₂ (catalog.ofEnumText?_relocate f)
  enumZero := funext (catalog.enumZero_relocate f)

/-- Catalogs that differ in cells only answer alike. -/
theorem agrees_of_relocate {f : Cell → Cell} {catalog catalog' : Catalog}
    (h : catalog'.relocate f = catalog.relocate f) : catalog.Agrees catalog' := by
  have hnew := (catalog'.agrees_relocate f).symm
  rw [h] at hnew
  exact (catalog.agrees_relocate f).trans hnew

/-! ### Constants -/

theorem constantValue_relocate (field : ConstantDecl) (resolved : Field) :
    (catalog.relocate f).constantValue (field.relocate f) resolved
      = relocated f id (catalog.constantValue field resolved) := by
  have hvalue : (field.relocate f).value = field.value := rfl
  rw [constantValue, constantValue, (catalog.agrees_relocate f).ofText, hvalue]
  cases catalog.ofText resolved.type field.value <;> rfl

theorem readConstants_relocate (fields : List ConstantDecl) :
    (catalog.relocate f).readConstants (fields.map (ConstantDecl.relocate f))
      = relocated f id (catalog.readConstants fields) := by
  have hconstants : (catalog.relocate f).constants = catalog.constants := rfl
  have hpairs : (fields.map (ConstantDecl.relocate f)).zip catalog.constants.fields
      = (fields.zip catalog.constants.fields).map fun entry => (entry.1.relocate f, entry.2) := by
    rw [List.zip_map_left]
    rfl
  rw [readConstants, readConstants, hconstants, hpairs,
    mapM_relocated_id fun entry _ => catalog.constantValue_relocate f entry.1 entry.2]
  exact relocated_bind fun pairs _ => rfl

end Catalog

/-! ### Code -/

namespace CSharp

variable (f : Cell → Cell) (schema : Schema) (catalog : Catalog)

theorem enumTypes_relocate (naming : NameStyle) (isGlobal : Bool) :
    enumTypes (schema.relocate f) naming isGlobal = enumTypes schema naming isGlobal := by
  have henum : ∀ (block : Block) (body : EnumDecl),
      enumOf naming (block.relocate f) (body.relocate f) = enumOf naming block body := by
    intro block body
    rw [enumOf, enumOf, EnumDecl.relocate, List.map_map]
    rfl
  rw [enumTypes, enumTypes, Schema.enums_relocate, List.filter_map, List.map_map]
  exact List.map_congr_left fun entry _ => congrArg _ (henum entry.1 entry.2)

theorem recordTypes_relocate (isGlobal : Bool) :
    recordTypes (schema.relocate f) catalog isGlobal
      = recordTypes schema catalog isGlobal := by
  have hrecord : ∀ (block : Block) (body : RecordDecl),
      recordOf catalog (block.relocate f) (body.relocate f)
        = recordOf catalog block body := by
    intro block body
    rw [recordOf, recordOf, RecordDecl.relocate]
    simp only [List.zipWith_map_left]
    rfl
  rw [recordTypes, recordTypes, Schema.records_relocate, List.filter_map, List.map_map]
  exact List.map_congr_left fun entry _ => congrArg _ (hrecord entry.1 entry.2)

theorem interfaceTypes_relocate (naming : NameStyle) :
    interfaceTypes (schema.relocate f) naming = interfaceTypes schema naming := by
  rw [interfaceTypes, interfaceTypes, Schema.interfaces_relocate, List.map_map]
  rfl

theorem keyText_relocate (design : DesignDecl) :
    keyText catalog (design.relocate f) = keyText catalog design := by
  rw [keyText, keyText, DesignDecl.keys_relocate, List.filterMap_map]
  rfl

theorem rowMembers_relocate (design : DesignDecl) :
    rowMembers catalog (design.relocate f) = rowMembers catalog design := by
  rw [rowMembers, rowMembers, keyText_relocate, DesignDecl.keys_relocate, List.map_map,
    DesignDecl.relocate, List.zipWith_map_left]
  rfl

theorem entityOf_relocate (names : LoaderNames) :
    entityOf (schema.relocate f) catalog names = entityOf schema catalog names := by
  have hsheet : (schema.relocate f).sheet = schema.sheet := rfl
  -- nothing in the entity hangs on a cell
  have hbases : ∀ name, entityBases (schema.relocate f) catalog names name
      = entityBases schema catalog names name := by
    intro name
    rw [entityBases, entityBases, Schema.design?_relocate, Schema.constants?_relocate,
      Option.isSome_map]
    cases schema.design? with
    | none => rfl
    | some entry =>
      simp only [Option.map_some, keyText_relocate]
      rfl
  have hconstants : ∀ fields : List ConstantDecl,
      List.zipWith (memberOfConstant catalog.naming) (fields.map (ConstantDecl.relocate f))
          catalog.constants.fields
        = List.zipWith (memberOfConstant catalog.naming) fields catalog.constants.fields := by
    intro fields
    rw [List.zipWith_map_left]
    rfl
  rw [entityOf, entityOf, hsheet, hbases, Schema.description?_relocate,
    enumTypes_relocate, recordTypes_relocate, Schema.constants?_relocate,
    Schema.design?_relocate, Option.map_map, Option.map_map]
  congr 1
  · exact congrArg (Option.map · _) (funext hconstants)
  · exact congrArg (Option.map · _) (funext fun entry => rowMembers_relocate f catalog entry.2)

/-- **The code of a sheet has no cells in it.** -/
theorem sheetFile_relocate (platforms : List Platform) :
    sheetFile (schema.relocate f) (catalog.relocate f) platforms
      = sheetFile schema catalog platforms := by
  rw [sheetFile_agrees (catalog.agrees_relocate f)]
  have hentity : (schema.relocate f).hasEntity = schema.hasEntity := by
    rw [Schema.hasEntity, Schema.hasEntity, Schema.design?_relocate, Schema.constants?_relocate,
      Option.isSome_map, Option.isSome_map]
  have hunit : unitOf (schema.relocate f) catalog platforms = unitOf schema catalog platforms := by
    rw [unitOf, unitOf, hentity, enumTypes_relocate, recordTypes_relocate,
      interfaceTypes_relocate, entityOf_relocate]
  rw [sheetFile, sheetFile, hunit]
  rfl

end CSharp
end TypedSheets

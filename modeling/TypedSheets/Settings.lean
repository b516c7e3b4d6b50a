import TypedSheets.Json.Basic
import TypedSheets.Schema.Dialect

/-!
# Settings

What a configuration can set: how sheets are read, how generated names are written,
and for which platforms code is generated. Every setting has a default. A
configuration is a tree of three sections; what it leaves out takes its default,
what it names beyond the settings is not looked at, and a setting of the wrong kind
spoils the whole configuration. A section may also be the list of its settings in
order. The formats of configurations differ in what they allow around the settings.

## Main definitions

* `Settings` — the settings, with their defaults.
* `ConfigRules` — what a format allows around the settings.
* `Settings.ofJson?` — the settings of a configuration.
* `SheetSettings.dialect` — the dialect of the sheets, or why there is none.
-/

namespace TypedSheets

/-- How sheets are read. -/
structure SheetSettings where
  /-- The casing of names and headers. -/
  casing : Casing := .pascal
  /-- What skipped rows and columns start with. -/
  ignoreMarker : String := ";"
  /-- Whether a marker row stands above the data rows. -/
  usesDataMarker : Bool := true
  /-- The type of enumerations that name none. -/
  enumBacking : Scalar := .int
  deriving DecidableEq, Repr

/-- How generated names are written. -/
structure NamingSettings where
  recordName : Casing := .pascal
  recordField : Casing := .pascal
  enumName : Casing := .pascal
  enumMember : Casing := .pascal
  className : Casing := .pascal
  publicName : Casing := .pascal
  privateName : Casing := .camel
  interfaceName : Casing := .pascal
  functionName : Casing := .pascal
  /-- What private names start with. -/
  privateLead : String := "_"
  /-- What names of interfaces start with. -/
  interfaceLead : String := "I"
  /-- The namespace of generated code; blank for none. -/
  namespaceText : String := "Sheet"
  /-- The part of a field name that `referenceWord` takes the place of. -/
  referenceSymbol : String := "Id"
  /-- What names the accessor of a reference. -/
  referenceWord : String := "Reference"
  deriving DecidableEq, Repr

/-- The namespace of generated code, if any. -/
def NamingSettings.namespace? (settings : NamingSettings) : Option String :=
  Text.trimmed? settings.namespaceText

/-- Where generated code runs. -/
inductive PlatformKind where
  /-- Data are text assets. -/
  | unity
  /-- Data are files. -/
  | dotnet
  deriving DecidableEq, Repr

namespace PlatformKind

/-- The name a configuration gives to a kind. -/
def name : PlatformKind → String
  | unity => "unity"
  | dotnet => "dotnet"

/-- The kind of a given name. -/
def ofName? (text : String) : Option PlatformKind :=
  [unity, dotnet].find? fun kind => kind.name == text

end PlatformKind

/-- A platform to generate code for. -/
structure Platform where
  kind : PlatformKind := .unity
  /-- The symbol that selects the code of the platform. -/
  symbol : String := "UNITY_2022_1_OR_NEWER"
  /-- Namespaces its code uses. -/
  namespaces : List String := []
  /-- Where its code looks for data. -/
  directory : String := "SheetData"
  deriving DecidableEq, Repr

/-- The settings of a run. -/
structure Settings where
  sheet : SheetSettings := {}
  naming : NamingSettings := {}
  platforms : List Platform := []
  deriving DecidableEq, Repr

/-! ### Dialects -/

/-- Why settings give no dialect. -/
inductive SettingsError where
  /-- Enumerations of a type without integers. -/
  | notAnIntegerType (type : Scalar)
  deriving DecidableEq, Repr

/-- The wording of an error in the settings. -/
def SettingsError.message : SettingsError → String
  | notAnIntegerType type =>
    s!"Invalid enum default type in config: `{type.keyword}` is not an integer type"

/-- The type of enumerations, if it is an integer type. -/
def SheetSettings.integerBacking (settings : SheetSettings) : Except SettingsError Scalar :=
  if settings.enumBacking.isInteger then .ok settings.enumBacking
  else .error (.notAnIntegerType settings.enumBacking)

/-- The dialect of the sheets. -/
def SheetSettings.dialect (settings : SheetSettings) : Except SettingsError Dialect :=
  if h : settings.enumBacking.isInteger = true then
    .ok ⟨settings.casing, settings.ignoreMarker, settings.usesDataMarker, settings.enumBacking, h⟩
  else .error (.notAnIntegerType settings.enumBacking)

/-! ### Rules of formats -/

/-- What the format of a configuration allows around its settings. -/
structure ConfigRules where
  /-- Whether a section that is a list may go on after its settings. -/
  allowsLongLists : Bool
  /-- What may stand under a name, where an object with that name is the name itself. -/
  isNothing : Json → Bool
  /-- The whole numbers that the format can hold. -/
  holds : Int → Bool

namespace ConfigRules

/-- The rules of JSON. -/
def json : ConfigRules where
  allowsLongLists := false
  isNothing
    | .null => true
    | _ => false
  holds _ := true

/-- The rules of TOML, which has no null. Whole numbers fit 128 bits, with a sign or
without. -/
def toml : ConfigRules where
  allowsLongLists := true
  isNothing
    | .arr [] => true
    | .obj [] => true
    | _ => false
  holds n := -Text.maxWide - 1 ≤ n && n ≤ 2 * Text.maxWide + 1

mutual

/-- Whether a format can hold all numbers of a tree. -/
def allows (rules : ConfigRules) : Json → Bool
  | .int n => rules.holds n
  | .arr items => rules.allowsAll items
  | .obj members => rules.allowsMembers members
  | _ => true

/-- Whether a format can hold all numbers of the items of a list. -/
def allowsAll (rules : ConfigRules) : List Json → Bool
  | [] => true
  | item :: items => rules.allows item && rules.allowsAll items

/-- Whether a format can hold all numbers of the members of an object. -/
def allowsMembers (rules : ConfigRules) : List (String × Json) → Bool
  | [] => true
  | (_, json) :: members => rules.allows json && rules.allowsMembers members

end

end ConfigRules

/-! ### Reading a configuration -/

namespace Settings

variable (rules : ConfigRules)

/-- A truth value of a configuration. -/
def flag? : Json → Option Bool
  | .bool b => some b
  | _ => none

/-- A text of a configuration. -/
def text? : Json → Option String
  | .str s => some s
  | _ => none

/-- A list of a configuration, item by item. -/
def list? {α : Type} (read : Json → Option α) : Json → Option (List α)
  | .arr items => items.mapM read
  | _ => none

/-- A name of a configuration: a text, or an object with nothing under that name. -/
def word? : Json → Option String
  | .str s => some s
  | .obj [(name, json)] => if rules.isNothing json then some name else none
  | _ => none

/-- A casing of a configuration. -/
def casing? (json : Json) : Option Casing := (word? rules json).bind Casing.ofName?

/-- A scalar type of a configuration. -/
def scalar? (json : Json) : Option Scalar := (word? rules json).bind Scalar.ofKeyword?

/-- A kind of platform of a configuration. -/
def platformKind? (json : Json) : Option PlatformKind :=
  (word? rules json).bind PlatformKind.ofName?

/-- The settings of a section by name. What the section names beyond them is passed over,
but has to be valid. -/
def members? (names : List String) : Json → Option (List (String × Json))
  | .obj members =>
    if members.all fun (name, json) => names.contains name || rules.allows json then some members
    else none
  | .arr items =>
    if rules.allowsLongLists || items.length ≤ names.length then some (names.zip items) else none
  | _ => none

/-- One setting of a section. -/
def setting? {α : Type} (members : List (String × Json)) (name : String)
    (read : Json → Option α) (default : α) : Option α :=
  match OrderedMap.get? members name with
  | some json => read json
  | none => some default

/-- The section on how sheets are read. -/
def sheet? (json : Json) : Option SheetSettings := do
  let members ← members? rules
    ["input_notation", "ignore_marker", "use_data_marker", "enum_default_type"] json
  let default : SheetSettings := {}
  return {
    casing := ← setting? members "input_notation" (casing? rules) default.casing
    ignoreMarker := ← setting? members "ignore_marker" text? default.ignoreMarker
    usesDataMarker := ← setting? members "use_data_marker" flag? default.usesDataMarker
    enumBacking := ← setting? members "enum_default_type" (scalar? rules) default.enumBacking }

/-- The names of the settings on generated names. -/
def namingNames : List String :=
  ["record_name", "record_property_name", "enum_name", "enum_item_name", "class_name",
   "public_variable_name", "private_variable_name", "interface_name", "function_name",
   "private_variable_prefix", "interface_prefix", "namespace", "reference_symbol",
   "reference_word"]

/-- The section on generated names. -/
def naming? (json : Json) : Option NamingSettings := do
  let members ← members? rules namingNames json
  let default : NamingSettings := {}
  return {
    recordName := ← setting? members "record_name" (casing? rules) default.recordName
    recordField := ← setting? members "record_property_name" (casing? rules) default.recordField
    enumName := ← setting? members "enum_name" (casing? rules) default.enumName
    enumMember := ← setting? members "enum_item_name" (casing? rules) default.enumMember
    className := ← setting? members "class_name" (casing? rules) default.className
    publicName := ← setting? members "public_variable_name" (casing? rules) default.publicName
    privateName := ← setting? members "private_variable_name" (casing? rules) default.privateName
    interfaceName := ← setting? members "interface_name" (casing? rules) default.interfaceName
    functionName := ← setting? members "function_name" (casing? rules) default.functionName
    privateLead := ← setting? members "private_variable_prefix" text? default.privateLead
    interfaceLead := ← setting? members "interface_prefix" text? default.interfaceLead
    namespaceText := ← setting? members "namespace" text? default.namespaceText
    referenceSymbol := ← setting? members "reference_symbol" text? default.referenceSymbol
    referenceWord := ← setting? members "reference_word" text? default.referenceWord }

/-- A platform. -/
def platform? (json : Json) : Option Platform := do
  let members ← members? rules ["kind", "define_name", "namespaces", "default_directory"] json
  let default : Platform := {}
  return {
    kind := ← setting? members "kind" (platformKind? rules) default.kind
    symbol := ← setting? members "define_name" text? default.symbol
    namespaces := ← setting? members "namespaces" (list? text?) default.namespaces
    directory := ← setting? members "default_directory" text? default.directory }

/-- The settings of a configuration. -/
def ofJson? (json : Json) : Option Settings := do
  let members ← members? rules ["sheet", "naming", "platforms"] json
  let default : Settings := {}
  return {
    sheet := ← setting? members "sheet" (sheet? rules) default.sheet
    naming := ← setting? members "naming" (naming? rules) default.naming
    platforms := ← setting? members "platforms" (list? (platform? rules)) default.platforms }

end Settings
end TypedSheets

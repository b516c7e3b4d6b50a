import TypedSheets.CSharp.Code
import TypedSheets.CSharp.LoaderNames

/-!
# Declarations of generated code

The declarations of a generated unit as data: enumerations, records, interfaces and
the entity of a sheet with its constants and row members. Their text is given by one
function each, so what a unit declares can be read off the data.

## Main definitions

* `EnumType`, `RecordType`, `InterfaceType`, `TypeDeclaration` — types.
* `ConstantMember`, `RowMember`, `RowMembers`, `Entity` — the entity of a sheet.
* `SheetUnit`, `SheetUnit.code` — a generated unit and its code.
-/

namespace TypedSheets.CSharp

open Code

/-! ### Types -/

/-- A member of an enumeration. -/
structure EnumItem where
  name : String
  /-- The number written for it, if any. -/
  explicit : Option Int
  comment : Option String
  deriving DecidableEq, Repr

/-- An enumeration. -/
structure EnumType where
  name : String
  summary : Option String
  backing : Scalar
  items : List EnumItem
  deriving DecidableEq, Repr

/-- A property of a record. -/
structure Property where
  name : String
  type : String
  /-- Whether it starts as a new list. -/
  isList : Bool
  /-- Whether it is left out of data when it has no value. -/
  optional : Bool
  comment : Option String
  deriving DecidableEq, Repr

/-- A record. -/
structure RecordType where
  name : String
  summary : Option String
  properties : List Property
  deriving DecidableEq, Repr

/-- An interface. -/
structure InterfaceType where
  name : String
  summary : Option String
  deriving DecidableEq, Repr

/-- A type beside or inside the entity of a sheet. -/
inductive TypeDeclaration where
  | enum (type : EnumType)
  | record (type : RecordType)
  | interface (type : InterfaceType)
  deriving DecidableEq, Repr

/-- The name of a declared type. -/
def TypeDeclaration.name : TypeDeclaration → String
  | enum type => type.name
  | record type => type.name
  | interface type => type.name

/-! ### Entities -/

/-- A constant: a private field that data are loaded into, and a public accessor. -/
structure ConstantMember where
  publicName : String
  privateName : String
  type : String
  comment : Option String
  deriving DecidableEq, Repr

/-- How a row member refers to the rows of another sheet: what it finds is kept. -/
structure ReferenceMember where
  accessor : String
  cache : String
  /-- The type of the rows. -/
  target : String
  deriving DecidableEq, Repr

/-- A member of a data row. -/
structure RowMember where
  publicName : String
  privateName : String
  /-- Its type, or that of its items. -/
  type : String
  /-- Whether it is a list, which is read-only from outside. -/
  isList : Bool
  /-- Whether it is left out of data when it has no value. -/
  optional : Bool
  comment : Option String
  reference : Option ReferenceMember
  deriving DecidableEq, Repr

/-- The members of data rows. -/
structure RowMembers where
  /-- The type of the key and how it is made from the members. -/
  keyType : String
  keyValue : String
  members : List RowMember
  deriving DecidableEq, Repr

/-- The entity of a sheet. -/
structure Entity where
  name : String
  summary : Option String
  /-- What it derives from. -/
  bases : List String
  /-- The types inside it. -/
  types : List TypeDeclaration
  constants : Option (List ConstantMember)
  rows : Option RowMembers
  deriving DecidableEq, Repr

/-- A generated unit. -/
structure SheetUnit where
  platforms : List Platform
  namespaceName : Option String
  /-- The types beside the entity. -/
  types : List TypeDeclaration
  entity : Option Entity
  deriving DecidableEq, Repr

/-! ### Code of types -/

/-- The attribute of what is left out of data without a value. -/
def ignoreNull (optional : Bool) : List Code :=
  if optional then [line "[JsonProperty(NullValueHandling = NullValueHandling.Ignore)]"] else []

/-- The code of a member of an enumeration. -/
def EnumItem.code (item : EnumItem) : List Code :=
  let value := match item.explicit with
    | some n => " = " ++ toString n
    | none => ""
  remark item.comment ++ [line (item.name ++ value ++ ","), blank]

/-- The code of an enumeration. -/
def EnumType.code (type : EnumType) : List Code :=
  summaryLines type.summary ++
    [line "[JsonConverter(typeof(StringEnumConverter))]",
     scope ("public enum " ++ type.name ++ " : " ++ type.backing.keyword)
       (type.items.flatMap EnumItem.code)]

/-- The code of a property. -/
def Property.code (property : Property) : List Code :=
  let start := if property.isList then " = new();" else ""
  remark property.comment ++ ignoreNull property.optional ++
    [line ("public " ++ property.type ++ " " ++ property.name ++ " \x7b get; init; \x7d" ++ start),
     blank]

/-- The code of a record. -/
def RecordType.code (type : RecordType) : List Code :=
  summaryLines type.summary ++
    [line "[Serializable]",
     scope ("public partial record " ++ type.name) (type.properties.flatMap Property.code)]

/-- The code of an interface. -/
def InterfaceType.code (type : InterfaceType) : List Code :=
  summaryLines type.summary ++ [scope ("public partial interface " ++ type.name) []]

/-- The code of a type, with a blank line after it. -/
def TypeDeclaration.code : TypeDeclaration → List Code
  | enum type => type.code ++ [blank]
  | record type => type.code ++ [blank]
  | interface type => type.code ++ [blank]

/-! ### Code of entities -/

/-- The code of a constant. Its accessor loads the data first. -/
def ConstantMember.code (names : LoaderNames) (constant : ConstantMember) : List Code :=
  [line ("[JsonProperty(nameof(" ++ constant.publicName ++ "))]"),
   line ("private static " ++ constant.type ++ " " ++ constant.privateName ++
     " \x7b get; set; \x7d"),
   blank] ++
  remark constant.comment ++
  [line "[JsonIgnore]",
   scope ("public static " ++ constant.type ++ " " ++ constant.publicName)
     [scope "get"
       [line ("if (IsLoaded is false) " ++ names.loadData ++ "();"),
        line ("return " ++ constant.privateName ++ ";")]],
   blank]

/-- The code that follows a reference, or a list of them. -/
def ReferenceMember.code (names : LoaderNames) (publicName : String) (isList : Bool)
    (reference : ReferenceMember) : List Code :=
  let target := reference.target
  let cacheType := if isList then "List<" ++ target ++ ">" else target
  let accessorType := if isList then "IReadOnlyList<" ++ target ++ ">" else target
  let found :=
    if isList then publicName ++ ".Select(x => " ++ target ++ "." ++ names.find ++ "(x)).ToList()"
    else target ++ "." ++ names.find ++ "(" ++ publicName ++ ")"
  [line "[JsonIgnore]",
   line ("private " ++ cacheType ++ " " ++ reference.cache ++ ";"),
   blank,
   line "[JsonIgnore]",
   line ("public " ++ accessorType ++ " " ++ reference.accessor ++ " => " ++ reference.cache ++
     " ??= " ++ found ++ ";"),
   blank]

/-- The code of a row member itself. -/
def RowMember.ownCode (member : RowMember) : List Code :=
  if member.isList then
    [line ("[JsonProperty(nameof(" ++ member.publicName ++ "))]"),
     line ("private List<" ++ member.type ++ "> " ++ member.privateName ++
       " \x7b get; init; \x7d = new();"),
     blank,
     line "[JsonIgnore]",
     line ("public IReadOnlyList<" ++ member.type ++ "> " ++ member.publicName ++ " => " ++
       member.privateName ++ ";")]
  else
    ignoreNull member.optional ++
      [line ("public " ++ member.type ++ " " ++ member.publicName ++ " \x7b get; init; \x7d")]

/-- The code of a row member and of the reference it holds. -/
def RowMember.code (names : LoaderNames) (member : RowMember) : List Code :=
  remark member.comment ++ member.ownCode ++ [blank] ++
    match member.reference with
    | some reference => reference.code names member.publicName member.isList
    | none => []

/-- The code of the members of data rows, the key first. -/
def RowMembers.code (names : LoaderNames) (rows : RowMembers) : List Code :=
  [line "[JsonIgnore]",
   line ("public " ++ rows.keyType ++ " " ++ names.key ++ " => " ++ rows.keyValue ++ ";"),
   blank] ++
  rows.members.flatMap (RowMember.code names)

/-- The code of an entity. -/
def Entity.code (names : LoaderNames) (entity : Entity) : List Code :=
  let constants := match entity.constants with
    | some constants => constants.flatMap (ConstantMember.code names) ++ [blank]
    | none => []
  let rows := match entity.rows with
    | some rows => rows.code names
    | none => []
  summaryLines entity.summary ++
    [scope ("public sealed partial record " ++ entity.name ++ " : " ++
        ", ".intercalate entity.bases)
      (entity.types.flatMap TypeDeclaration.code ++ constants ++ rows)]

/-! ### Units -/

/-- The namespaces that every unit uses. -/
def sheetNamespaces : List String :=
  ["System", "System.Linq", "System.Collections", "System.Collections.Generic",
   "Newtonsoft.Json", "Newtonsoft.Json.Converters"]

/-- The directives of the namespaces that platforms use. -/
def platformUsings (platforms : List Platform) : List Code :=
  platforms.flatMap fun platform =>
    line ("#if " ++ platform.symbol) :: usings (usedNamespaces platform) ++ [line "#endif"]

/-- The header of a namespace. -/
def namespaceLine (name : String) : String := "namespace " ++ name

/-- The code of a unit. -/
def SheetUnit.code (names : LoaderNames) (unit : SheetUnit) : List Code :=
  let entity := match unit.entity with
    | some entity => entity.code names
    | none => []
  usings sheetNamespaces ++ platformUsings unit.platforms ++ [blank] ++
    inScope? (unit.namespaceName.map namespaceLine)
      (unit.types.flatMap TypeDeclaration.code ++ entity)

end TypedSheets.CSharp

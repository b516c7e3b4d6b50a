import TypedSheets.NameStyle

/-!
# Names of the loader

The types that generated code derives from, which load its data, and the members of
these types, under the names that the settings ask for.

## Main definitions

* `LoaderNames` — the names.
* `LoaderNames.ofNaming` — the names for a naming.
-/

namespace TypedSheets.CSharp

/-- The names of the types and members of the loader. -/
structure LoaderNames where
  /-- What every generated type derives from. -/
  base : String
  /-- The interface of data rows. -/
  designInterface : String
  /-- The base of types with data rows. -/
  design : String
  /-- The base of types with constants. -/
  constant : String
  /-- The base of types with both. -/
  full : String
  /-- The exception for a missing row. -/
  notFound : String
  /-- The key of a row. -/
  key : String
  /-- The rows of a sheet. -/
  data : String
  dataField : String
  readData : String
  readDataAsync : String
  loadData : String
  loadDataAsync : String
  loadAllDataAsync : String
  find : String
  findAll : String
  deriving DecidableEq, Repr

/-- The names of the loader for a naming. -/
def LoaderNames.ofNaming (naming : NameStyle) : LoaderNames where
  base := naming.ofClass "BaseSheetDataHelper"
  designInterface := naming.ofInterface "DesignSheetData"
  design := naming.ofClass "DesignSheetDataHelper"
  constant := naming.ofClass "ConstantSheetDataHelper"
  full := naming.ofClass "FullSheetDataHelper"
  notFound := naming.ofClass "SheetDataNotFoundException"
  key := naming.ofMember "Key"
  data := naming.ofMember "Data"
  dataField := naming.ofPrivate "data"
  readData := naming.ofFunction "ReadData"
  readDataAsync := naming.ofFunction "ReadDataAsync"
  loadData := naming.ofFunction "LoadData"
  loadDataAsync := naming.ofFunction "LoadDataAsync"
  loadAllDataAsync := naming.ofFunction "LoadAllDataAsync"
  find := naming.ofFunction "Find"
  findAll := naming.ofFunction "FindAll"

/-- The namespaces that the code of a platform uses: those of its kind, then the
configured ones, each once. -/
def usedNamespaces (platform : Platform) : List String :=
  let builtin := match platform.kind with
    | .unity => ["UnityEngine", "UnityEngine.AddressableAssets"]
    | .dotnet => []
  platform.namespaces.foldl
    (fun names name => if names.contains name then names else names ++ [name]) builtin

end TypedSheets.CSharp

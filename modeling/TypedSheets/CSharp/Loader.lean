import TypedSheets.CSharp.Declaration

/-!
# The loader

The units that generated code derives from. They depend on the settings alone and
are written once for all sheets: the base that reads data on each platform, a loader
for rows, for constants and for both, and the small types that these need.

## Main definitions

* `byPlatform` — code that differs between platforms.
* `baseUnit`, `designUnit`, `constantUnit`, `fullUnit`, … — the units.
* `loaderUnits` — all units, in order.
-/

namespace TypedSheets.CSharp

open Code

namespace Loader

/-- Code that differs between platforms, with what holds on all others. -/
def byPlatform (platforms : List Platform) (arm : Platform → List Code) (fallback : String) :
    List Code :=
  let arms := platforms.zipIdx.flatMap fun (platform, i) =>
    line ((if i = 0 then "#if " else "#elif ") ++ platform.symbol) :: arm platform
  if platforms.isEmpty then [line fallback]
  else arms ++ [line "#else", line fallback, line "#endif"]

/-- Code in a namespace, if there is one. -/
def inNamespace (name : Option String) (body : List Code) : List Code :=
  inScope? (name.map namespaceLine) body

/-! ### The base -/

/-- Where data lie on a platform. -/
def directoryCode (platforms : List Platform) : List Code :=
  byPlatform platforms
    (fun platform =>
      [line ("protected static readonly string DefaultDirectory = \"" ++ platform.directory ++
        "\";")])
    "protected static readonly string DefaultDirectory = string.Empty;"

/-- Reads the text of a type on a platform. -/
def readArm (platform : Platform) : List Code :=
  match platform.kind with
  | .unity =>
    [line ("var textAsset = Addressables.LoadAssetAsync<TextAsset>" ++
       "($\"\x7bDefaultDirectory\x7d/\x7btypeof(T).Name\x7d\").WaitForCompletion();"),
     line "var json = textAsset.text;"]
  | .dotnet =>
    [line ("var json = System.IO.File.ReadAllText" ++
       "($\"\x7bDefaultDirectory\x7d/\x7btypeof(T).Name\x7d.json\");")]

/-- Reads the text of a type on a platform without waiting. -/
def readAsyncArm (platform : Platform) : List Code :=
  match platform.kind with
  | .unity =>
    [line ("var textAsset = await Addressables.LoadAssetAsync<TextAsset>" ++
       "($\"\x7bDefaultDirectory\x7d/\x7btypeof(T).Name\x7d\").Task;"),
     line "var json = textAsset.text;"]
  | .dotnet =>
    [line ("var json = await System.IO.File.ReadAllTextAsync" ++
       "($\"\x7bDefaultDirectory\x7d/\x7btypeof(T).Name\x7d.json\");")]

/-- The body of a function that reads the text of a type. -/
def readBody (platforms : List Platform) (arm : Platform → List Code) : List Code :=
  byPlatform platforms arm "var json = string.Empty;" ++ [blank, line "return json;"]

/-- The function that loads the data of every type. -/
def loadAllCode (names : LoaderNames) : Code :=
  scope ("public static async Task " ++ names.loadAllDataAsync ++ "()")
    [line ("var sheetTypes = typeof(" ++ names.base ++ ").Assembly.GetTypes()" ++
       ".Where(x => x.IsAbstract is false && x.IsSubclassOf(typeof(" ++ names.base ++ ")));"),
     line ("var methodInfos = sheetTypes.Select(x => x.GetMethod(\"" ++ names.loadDataAsync ++
       "\", BindingFlags.Static | BindingFlags.FlattenHierarchy | BindingFlags.Public));"),
     line ("var loadFunctions = methodInfos" ++
       ".Select(x => x?.Invoke(null, new object[] \x7b \x7d)).Cast<Task>();"),
     line "await Task.WhenAll(loadFunctions);"]

/-- What every generated type derives from. -/
def baseUnit (names : LoaderNames) (namespaceName : Option String) (platforms : List Platform) :
    CodeFile :=
  .ofType names.base
    (usings ["System.Linq", "System.Reflection", "System.Threading.Tasks"] ++
      platformUsings platforms ++ [blank] ++
      inNamespace namespaceName
        [scope ("public abstract record " ++ names.base)
          (directoryCode platforms ++
            [blank,
             scope ("protected static string " ++ names.readData ++ "<T>()")
               (readBody platforms readArm),
             blank,
             scope ("protected static async Task<string> " ++ names.readDataAsync ++ "<T>()")
               (readBody platforms readAsyncArm),
             blank,
             loadAllCode names])])

/-! ### Rows -/

/-- The interface of data rows. -/
def designInterfaceUnit (names : LoaderNames) (namespaceName : Option String) : CodeFile :=
  .ofType names.designInterface
    (inNamespace namespaceName
      [scope ("public interface " ++ names.designInterface ++ "<out T>")
        [line ("public T " ++ names.key ++ " \x7b get; \x7d")]])

/-- The header of a loader of rows. -/
def rowsHeader (names : LoaderNames) (name : String) : String :=
  "public abstract record " ++ name ++ "<TKey, TValue> : " ++ names.base ++
    " where TValue : " ++ names.designInterface ++ "<TKey>"

/-- The functions that find rows. `lookup` is the dictionary of the rows; `guard` makes
sure that they are loaded. -/
def lookupCode (names : LoaderNames) (lookup : String) (guard : List Code) : List Code :=
  [scope ("public static TValue " ++ names.find ++
     "(TKey key, bool throwNotFoundException = false)")
     (guard ++
       [scope ("if (" ++ lookup ++
          ".TryGetValue(key, out var result) is false && throwNotFoundException)")
          [line ("throw new " ++ names.notFound ++ "<TValue>(key);")],
        line "return result;"]),
   blank,
   scope ("public static TValue " ++ names.find ++ "(Predicate<TValue> match)")
     (guard ++ [line ("return " ++ lookup ++ ".Values.FirstOrDefault(match.Invoke);")]),
   blank,
   scope ("public static IEnumerable<TValue> " ++ names.findAll ++ "(Predicate<TValue> match)")
     (guard ++ [line ("return " ++ lookup ++ ".Values.Where(match.Invoke);")])]

/-- Fails when the data of a type are missing. -/
def notLoaded (type : String) : Code :=
  line ("throw new Exception($\"\x7btypeof(" ++ type ++ ").Name\x7d was not loaded.\");")

/-- The namespaces that loaders of rows use. -/
def rowNamespaces : List String :=
  ["System", "System.Collections.Generic", "System.Linq", "System.Threading.Tasks",
   "Newtonsoft.Json"]

/-- The check that rows were read. -/
def rowsCheck : Code :=
  scope "if (JsonConvert.DeserializeObject<List<TValue>>(json) is not \x7b \x7d data)"
    [notLoaded "TValue"]

/-- The loader of rows. -/
def designUnit (names : LoaderNames) (namespaceName : Option String) : CodeFile :=
  let data := names.dataField
  .ofType names.design
    (usings rowNamespaces ++ [blank] ++
      inNamespace namespaceName
        [scope (rowsHeader names names.design)
          ([line ("private static Lazy<Dictionary<TKey, TValue>> " ++ data ++ " = new(" ++
              names.loadData ++ ");"),
            blank,
            line ("public static IEnumerable<TValue> " ++ names.data ++ " => " ++ data ++
              ".Value.Values;"),
            blank,
            scope ("private static Dictionary<TKey, TValue> " ++ names.loadData ++ "()")
              [line ("var json = " ++ names.readData ++ "<TValue>();"),
               blank,
               rowsCheck,
               line ("return data.ToDictionary(x => x." ++ names.key ++ ", x => x);")],
            blank,
            scope ("public static async Task " ++ names.loadDataAsync ++ "()")
              [line ("var json = await " ++ names.readDataAsync ++ "<TValue>();"),
               blank,
               rowsCheck,
               blank,
               line ("var dataDictionary = data.ToDictionary(x => x." ++ names.key ++
                 ", x => x);"),
               line (data ++ " = new Lazy<Dictionary<TKey, TValue>>(dataDictionary);")],
            blank] ++
          lookupCode names (data ++ ".Value") [])])

/-! ### Constants -/

/-- The body of a function that loads constants. -/
def constantBody (read : String) : List Code :=
  [line "IsLoaded = true;",
   line read,
   blank,
   line "if (JsonConvert.DeserializeObject<T>(json) is \x7b \x7d) return;",
   notLoaded "T"]

/-- The loader of constants. -/
def constantUnit (names : LoaderNames) (namespaceName : Option String) : CodeFile :=
  .ofType names.constant
    (usings ["System", "System.Threading.Tasks", "Newtonsoft.Json"] ++ [blank] ++
      inNamespace namespaceName
        [scope ("public abstract record " ++ names.constant ++ "<T> : " ++ names.base)
          [line "protected static bool IsLoaded;",
           blank,
           scope ("protected static void " ++ names.loadData ++ "()")
             (constantBody ("var json = " ++ names.readData ++ "<T>();")),
           blank,
           scope ("public static async Task " ++ names.loadDataAsync ++ "()")
             (constantBody ("var json = await " ++ names.readDataAsync ++ "<T>();"))]])

/-! ### Rows and constants -/

/-- The body of a function that loads rows and constants. -/
def fullBody (names : LoaderNames) (read : String) : List Code :=
  [line "IsLoaded = true;",
   line read,
   blank,
   line "var (_, data) = JsonConvert.DeserializeObject<(TValue, List<TValue>)>(json);",
   scope "if (data is null)" [notLoaded "TValue"],
   line (names.dataField ++ " = data.ToDictionary(x => x." ++ names.key ++ ", x => x);")]

/-- The loader of rows and constants. -/
def fullUnit (names : LoaderNames) (namespaceName : Option String) : CodeFile :=
  let data := names.dataField
  let guard := line ("if (IsLoaded is false) " ++ names.loadData ++ "();")
  .ofType names.full
    (usings rowNamespaces ++ [blank] ++
      inNamespace namespaceName
        [scope (rowsHeader names names.full)
          ([line "protected static bool IsLoaded;",
            line ("private static Dictionary<TKey, TValue> " ++ data ++ ";"),
            blank,
            scope ("public static IEnumerable<TValue> " ++ names.data)
              [scope "get" [guard, line ("return " ++ data ++ ".Values;")]],
            blank,
            scope ("protected static void " ++ names.loadData ++ "()")
              (fullBody names ("var json = " ++ names.readData ++ "<TValue>();")),
            blank,
            scope ("public static async Task " ++ names.loadDataAsync ++ "()")
              (fullBody names ("var json = await " ++ names.readDataAsync ++ "<TValue>();")),
            blank] ++
          lookupCode names data [guard])])

/-! ### Small types -/

/-- The exception for a missing row. -/
def notFoundUnit (names : LoaderNames) (namespaceName : Option String) : CodeFile :=
  .ofType names.notFound
    (usings ["System"] ++ [blank] ++
      inNamespace namespaceName
        [scope ("public class " ++ names.notFound ++ "<T> : Exception")
          [line "public Type DataType => typeof(T);",
           line ("public object " ++ names.key ++ " \x7b get; private set; \x7d"),
           blank,
           scope ("public " ++ names.notFound ++ "(object key) : base($\"" ++
               "\x7btypeof(T).Name\x7d does not exist. (" ++ names.key ++ ": \x7bkey\x7d)\")")
             [line (names.key ++ " = key;")]]])

/-- The type that older compilers need for properties set once. -/
def externalInitUnit : CodeFile :=
  .ofType "IsExternalInit"
    [scope "namespace System.Runtime.CompilerServices"
      [scope "public sealed class IsExternalInit" []]]

end Loader

open Loader

/-- The units of the loader, in order. -/
def loaderUnits (naming : NameStyle) (platforms : List Platform) : List CodeFile :=
  let names := LoaderNames.ofNaming naming
  let namespaceName := naming.settings.namespace?
  [baseUnit names namespaceName platforms,
   designInterfaceUnit names namespaceName,
   designUnit names namespaceName,
   constantUnit names namespaceName,
   fullUnit names namespaceName,
   notFoundUnit names namespaceName,
   externalInitUnit]

end TypedSheets.CSharp

import TypedSheets.CSharp.Loader
import TypedSheets.Compiler
import TypedSheets.Report
import TypedSheets.Source.Directory
import TypedSheets.Toml.Document

/-!
# Runs

A run compiles the sheets of a folder and writes code and data of those that compile
into another one, together with the units of the loader. Its settings come from a
configuration file: the one it is given, else one beside the folder, else that of the
user, else there is none and the defaults hold.

## Main definitions

* `RunOptions` — what a run is asked to do.
* `FileTree.loadSettings` — the settings of a run.
* `FileTree.withOutputs` — the tree with the outputs of a run.
* `RunSummary`, `FileTree.run` — a run on a tree of files.
-/

namespace TypedSheets

/-- What a run is asked to do. -/
structure RunOptions where
  /-- The folder of the sheets. -/
  input : String
  /-- The folder of the outputs. -/
  output : String := "output"
  /-- The configuration file, if one is named. -/
  config : Option String := none
  /-- The configuration file of the user, if there may be one. -/
  userConfig : Option String := none
  /-- Whether nothing is to be written. -/
  dryRun : Bool := false
  deriving DecidableEq, Repr

/-- The configuration file that is looked for where a run starts. -/
def localConfig : String := "sheetdata/config.toml"

/-- The folder of generated code, inside that of the outputs. -/
def scriptsFolder : String := "scripts"

/-- The folder of data documents, inside that of the outputs. -/
def dataFolder : String := "data"

/-- What came of a run. -/
structure RunSummary where
  /-- The names of the sheets that compiled. -/
  compiled : List String
  /-- The warnings of these sheets. -/
  warnings : List (String × Diagnostic)
  failures : List RunError
  deriving DecidableEq, Repr

/-- Whether every sheet compiled. -/
def RunSummary.isSuccess (report : RunSummary) : Bool := report.failures.isEmpty

namespace FileTree

/-! ### Settings -/

/-- The text of a configuration file. -/
def configText (tree : FileTree) (path : String) : Except ConfigError String :=
  match tree.find? path with
  | none => .error (.missingFile path)
  | some .folder => .error (.unreadable path .isFolder)
  | some (.file content) =>
    match content.text? with
    | some text => .ok text
    | none => .error (.unreadable path .notText)

/-- The settings of a configuration file. -/
def readSettings (tree : FileTree) (path : String) : Except ConfigError Settings := do
  let text ← tree.configText path
  match (Toml.read? text).bind (Settings.ofJson? .toml) with
  | some settings => return settings
  | none => throw (.unparsable path)

/-- The configuration file of a run, if any: the one that is named, whether it exists or
not, or else the first that exists. -/
def configPath? (tree : FileTree) (options : RunOptions) : Option String :=
  match options.config with
  | some path => some path
  | none => (localConfig :: options.userConfig.toList).find? fun path => (tree.find? path).isSome

/-- The settings of a run. -/
def loadSettings (tree : FileTree) (options : RunOptions) : Except ConfigError Settings :=
  match tree.configPath? options with
  | some path => tree.readSettings path
  | none => .ok {}

/-! ### Outputs -/

/-- The files of a compiled sheet inside the folder of the outputs. -/
def sheetOutputs (sheet : SheetOutput) : List (String × String) :=
  let code := (join scriptsFolder sheet.code.fileName, sheet.code.text)
  match sheet.data with
  | some document => [code, (join dataFolder (sheet.className ++ ".json"), document)]
  | none => [code]

/-- The files that a run writes inside the folder of the outputs, in order. -/
def outputs (loader : List CSharp.CodeFile) (sheets : List SheetOutput) :
    List (String × String) :=
  (loader.map fun unit => (join scriptsFolder unit.fileName, unit.text)) ++
    sheets.flatMap sheetOutputs

/-- The tree with the outputs of a run. -/
def withOutputs (tree : FileTree) (output : String) (files : List (String × String)) :
    Except FileError FileTree := do
  let tree ← tree.createFolders (join output scriptsFolder)
  let tree ← tree.createFolders (join output dataFolder)
  files.foldlM (fun tree (path, text) => tree.write (join output path) (.ofText text)) tree

/-! ### Runs -/

/-- A run: what came of it, and the tree after it. -/
def run (tree : FileTree) (options : RunOptions) : Except RunError (RunSummary × FileTree) := do
  let settings ← match tree.loadSettings options with
    | .ok settings => .ok settings
    | .error e => .error (.config e)
  let directory ← Directory.ofFolder options.input tree
  let (sheets, failures) := settings.compileLenient (directory.source tree)
  let loader := CSharp.loaderUnits settings.names settings.platforms
  let written ← if options.dryRun then .ok tree
    else match tree.withOutputs options.output (outputs loader sheets) with
      | .ok written => .ok written
      | .error e => .error (.file e)
  let warnings := sheets.flatMap fun sheet =>
    sheet.warnings.map fun warning => (sheet.name, warning)
  return (⟨sheets.map (·.name), warnings, failures⟩, written)

end FileTree
end TypedSheets

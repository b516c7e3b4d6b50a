import TypedSheets.Run

/-!
# The command line

Reads the folder of the sheets and the configuration files into a tree of files, runs
on that tree, and writes what the run added to it. Reports go to the error stream.
Workbooks are read as bytes here, and so cannot be opened.

## Main definitions

* `RunOptions.ofArgs` — the options that arguments ask for.
* `CommandLine.readTree`, `CommandLine.writeTree` — the files around a run.
* `main` — the program.
-/

namespace TypedSheets

/-! ### Arguments -/

/-- Options changed by arguments, or what is wrong with these. -/
def RunOptions.withArgs : List String → RunOptions → Except String RunOptions
  | [], options =>
    if options.input.isEmpty then .error "the folder of the sheets is missing" else .ok options
  | "--dry-run" :: rest, options => withArgs rest { options with dryRun := true }
  | "--log-level" :: _ :: rest, options => withArgs rest options
  | "-o" :: path :: rest, options => withArgs rest { options with output := path }
  | "--output" :: path :: rest, options => withArgs rest { options with output := path }
  | "-c" :: path :: rest, options => withArgs rest { options with config := some path }
  | "--config" :: path :: rest, options => withArgs rest { options with config := some path }
  | path :: rest, options =>
    if path.startsWith "-" || !options.input.isEmpty then
      .error s!"unexpected argument `{path}`"
    else withArgs rest { options with input := path }

/-- The options that arguments ask for. -/
def RunOptions.ofArgs (userConfig : Option String) (args : List String) :
    Except String RunOptions :=
  withArgs args { input := "", userConfig := userConfig }

/-- A report as text: its headline behind its code, its labels and its help. -/
def Report.text (report : Report) : String :=
  let code := match report.code with
    | some code => "[" ++ code ++ "] "
    | none => ""
  let labels := (report.labels.getD []).map fun span => "  " ++ span.message
  let help := report.help.toList.map fun help => "  help: " ++ help
  "\n".intercalate ((code ++ report.display) :: labels ++ help)

namespace CommandLine

/-! ### Files -/

/-- What stands under a path on disk. -/
def readEntry (path : String) : IO (Option Entry) := do
  try
    let found ← IO.FS.realPath path
    if ← found.isDir then return some .folder
    let data ← IO.FS.readBinFile path
    return some (.file (.bytes data.toList))
  catch _ => return none

/-- A tree with what stands under a path on disk, all folders before it being there. -/
def addEntry (tree : FileTree) (path : String) : IO FileTree := do
  match tree.locate path with
  | .error _ => return tree
  | .ok place =>
    if (tree.entry? place).isSome then return tree
    match ← readEntry path with
    | some entry => return tree.put place entry
    | none => return tree

/-- The paths on the way to a path, itself included, from the shortest on. -/
def pathsTo (path : String) : List String :=
  let names := FileTree.names path
  (List.range names.length).map fun n => "/".intercalate (names.take (n + 1))

/-- A tree with what stands under a path on disk, and the folders before it. -/
def addPath (tree : FileTree) (path : String) : IO FileTree := (pathsTo path).foldlM addEntry tree

/-- The names of what lies in a folder on disk. -/
def readNames (path : String) : IO (List String) := do
  let folder ← IO.FS.realPath path
  let entries ← folder.readDir
  return entries.toList.map (·.fileName)

/-- The files that a run looks at: its input and its configuration. -/
def readTree (options : RunOptions) : IO FileTree := do
  let configs := options.config.toList ++ localConfig :: options.userConfig.toList
  let tree ← (options.input :: configs).foldlM addPath {}
  match tree.find? options.input with
  | some .folder =>
    let names ← readNames options.input
    names.foldlM (fun tree name => addEntry tree (FileTree.join options.input name)) tree
  | _ => return tree

/-- Whether a run has put something at a place: it was not there before, or it lies in
one of the folders of the outputs. -/
def isOutput (before after : FileTree) (output : String) (place : List String) : Bool :=
  (before.entry? place).isNone ||
    [scriptsFolder, dataFolder].any fun folder =>
      match after.locate (FileTree.join output folder) with
      | .ok folder => folder.isPrefixOf place
      | .error _ => false

/-- Writes what a run has put into a tree. -/
def writeTree (before after : FileTree) (output : String) : IO Unit := do
  for (place, entry) in after.entries do
    if isOutput before after output place then
      let target := "/".intercalate place
      match entry with
      | .folder => IO.FS.createDirAll target
      | .file (.bytes data) => IO.FS.writeBinFile target ⟨data.toArray⟩
      | .file (.workbook _) => pure ()

/-- The configuration file of the user. -/
def userConfig : IO (Option String) := do
  match ← IO.getEnv "XDG_CONFIG_HOME", ← IO.getEnv "HOME" with
  | some folder, _ => return some (FileTree.join folder localConfig)
  | none, some home => return some (FileTree.join home (FileTree.join ".config" localConfig))
  | none, none => return none

/-! ### Runs -/

/-- Writes reports to the error stream. -/
def showReports (reports : List Report) : IO Unit := do
  for report in reports do
    IO.eprintln report.text

/-- Runs with options; `true` when every sheet compiled. -/
def runWith (options : RunOptions) : IO Bool := do
  let tree ← readTree options
  match tree.run options with
  | .error e =>
    showReports e.reports
    return false
  | .ok (report, after) =>
    if !options.dryRun then writeTree tree after options.output
    showReports (report.warnings.map fun (sheet, warning) => warning.report sheet)
    showReports (report.failures.flatMap RunError.reports)
    return report.isSuccess

end CommandLine
end TypedSheets

open TypedSheets in
/-- Compiles the sheets of a folder. -/
def main (args : List String) : IO UInt32 := do
  match RunOptions.ofArgs (← CommandLine.userConfig) args with
  | .error reason =>
    IO.eprintln reason
    return 2
  | .ok options => return if ← CommandLine.runWith options then 0 else 1

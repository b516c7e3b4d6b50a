import TypedSheets.Proofs.FileTrees
import TypedSheets.Proofs.StrictLenient
import TypedSheets.Run

/-!
# The outputs of a run

A run writes the units of the loader, and then code and data of every sheet that compiles, each
under a name of its own.  The names of sheets are distinct, but the files bear the names of
classes: two sheets may get one class name, and a sheet may get that of a unit.  Later files
then replace earlier ones, and the run succeeds all the same.

Files are told apart by their last names.  Those of code and data differ by their extensions,
and those of the units differ under all settings.  So if the class names of the sheets that
compile differ from each other and from the units, a run holds all its outputs.

## Main results

* `run_eq_ok` — a run step by step.
* `withOutputs_spec` — what writing the outputs leaves at every place.
* `nodup_baseNames` — the units of the loader have different last names.
* `eq_of_baseName_eq` — outputs of one last name are one output.
* `run_keeps_outputs` — **when a run holds all its outputs, and all that it changes.**
-/

namespace TypedSheets
namespace FileTree

variable {tree after : FileTree} {output : String} {loader : List CSharp.CodeFile}
  {sheets : List SheetOutput}

/-! ### Writing outputs -/

/-- The files of a run under their whole paths, with what they hold. -/
def placed (output : String) (files : List (String × String)) : List (String × FileContent) :=
  files.map fun file => (join output file.1, .ofText file.2)

/-- What a run leaves at a place. -/
inductive Leaves (tree after : FileTree) (output : String) (files : List (String × String))
    (place : List String) : Prop where
  /-- The last output that leads there. -/
  | written (file : String × FileContent) (hlast : after.LastAt (placed output files) place file)
      (hentry : after.entry? place = some (.file file.2))
  /-- What stood there before, where no output leads. -/
  | kept (hnone : ∀ file ∈ files, after.locate (join output file.1) ≠ .ok place)
      (hentry : after.entry? place = tree.entry? place)
  /-- A folder for the outputs, where nothing stood before. -/
  | made (folder : String) (hfolder : folder ∈ [scriptsFolder, dataFolder])
      (hnew : NewFolder tree after place) (hway : after.OnTheWay (join output folder) place)

/-- The folders of the outputs are made first, and then the outputs are written. -/
theorem withOutputs_eq_ok {files : List (String × String)}
    (h : tree.withOutputs output files = .ok after) : ∃ scripts made,
      tree.createFolders (join output scriptsFolder) = .ok scripts ∧
      scripts.createFolders (join output dataFolder) = .ok made ∧
      Wrote made after (placed output files) := by
  obtain ⟨scripts, hscripts, h⟩ := bind_eq_ok.mp h
  obtain ⟨made, hmade, h⟩ := bind_eq_ok.mp h
  refine ⟨scripts, made, hscripts, hmade, writes_spec ?_⟩
  rw [writes, placed, List.foldlM_map]
  exact h

/-- **What writing the outputs leaves at every place.** -/
theorem withOutputs_spec {files : List (String × String)}
    (h : tree.withOutputs output files = .ok after) (place : List String) :
    Leaves tree after output files place := by
  obtain ⟨scripts, made, hscripts, hmade, hwrote⟩ := withOutputs_eq_ok h
  have hfirst := createFolders_spec hscripts
  have hsecond := createFolders_spec hmade
  have hkeeps : KeepsFolders made after := fun q => (hwrote.folders q).mpr
  have hmid : KeepsFolders scripts made :=
    keepsFolders_of_newFolder fun q => (hsecond q).imp_right And.left
  rcases hwrote.entries place with
    ⟨file, ⟨earlier, later, hfiles, hat, hlater⟩, hentry⟩ | ⟨hnone, hsame⟩
  · refine .written file ⟨earlier, later, hfiles, hwrote.locate_iff.mpr hat, ?_⟩ hentry
    exact fun other hother hlocate => hlater other hother (hwrote.locate_iff.mp hlocate)
  · have hnone' : ∀ file ∈ files, after.locate (join output file.1) ≠ .ok place := by
      intro file hfile hlocate
      exact hnone _ (List.mem_map_of_mem hfile) (hwrote.locate_iff.mp hlocate)
    rcases hsecond place with hdata | ⟨⟨hbefore, hfolder⟩, hway⟩
    · rcases hfirst place with hscript | ⟨⟨hbefore, hfolder⟩, hway⟩
      · exact .kept hnone' (hsame.trans (hdata.trans hscript))
      · refine .made scriptsFolder (by simp) ⟨hbefore, ?_⟩ (hway.mono (hmid.trans hkeeps))
        rw [hsame, hdata, hfolder]
    · -- nothing stood there before the folder of code was made either
      have hnothing : tree.entry? place = none := by
        rcases hfirst place with hscript | ⟨⟨hbefore', -⟩, -⟩
        · rw [← hscript, hbefore]
        · exact hbefore'
      exact .made dataFolder (by simp) ⟨hnothing, hsame.trans hfolder⟩ (hway.mono hkeeps)

/-! ### Holding outputs -/

/-- A tree holds all outputs of a run, each under its own path. -/
structure Holds (tree : FileTree) (output : String) (loader : List CSharp.CodeFile)
    (sheets : List SheetOutput) : Prop where
  /-- The text of every unit, and the code of every sheet. -/
  code : ∀ unit ∈ loader ++ sheets.map SheetOutput.code,
    tree.file? (join output (join scriptsFolder unit.fileName)) = some (.ofText unit.text)
  /-- The document of every sheet that has one. -/
  data : ∀ sheet ∈ sheets, ∀ document, sheet.data = some document →
    tree.file? (join output (join dataFolder (sheet.className ++ ".json")))
      = some (.ofText document)

theorem mem_outputs {file : String × String} : file ∈ outputs loader sheets ↔
    (∃ unit ∈ loader ++ sheets.map SheetOutput.code,
      file = (join scriptsFolder unit.fileName, unit.text)) ∨
    ∃ sheet ∈ sheets, ∃ document, sheet.data = some document ∧
      file = (join dataFolder (sheet.className ++ ".json"), document) := by
  have hsheet : ∀ sheet : SheetOutput, file ∈ sheetOutputs sheet ↔
      file = (join scriptsFolder sheet.code.fileName, sheet.code.text) ∨
      ∃ document, sheet.data = some document ∧
        file = (join dataFolder (sheet.className ++ ".json"), document) := by
    intro sheet
    unfold sheetOutputs
    cases hdata : sheet.data with
    | none => simp
    | some document => simp
  unfold outputs
  rw [List.mem_append, List.mem_flatMap]
  simp only [hsheet, List.mem_append, List.mem_map]
  constructor
  · rintro (⟨unit, hunit, rfl⟩ | ⟨sheet, hmem, rfl | hdata⟩)
    · exact Or.inl ⟨unit, Or.inl hunit, rfl⟩
    · exact Or.inl ⟨sheet.code, Or.inr ⟨sheet, hmem, rfl⟩, rfl⟩
    · exact Or.inr ⟨sheet, hmem, hdata⟩
  · rintro (⟨unit, hunit | ⟨sheet, hmem, rfl⟩, rfl⟩ | ⟨sheet, hmem, hdata⟩)
    · exact Or.inl ⟨unit, hunit, rfl⟩
    · exact Or.inr ⟨sheet, hmem, Or.inl rfl⟩
    · exact Or.inr ⟨sheet, hmem, Or.inr hdata⟩

theorem holds_iff : tree.Holds output loader sheets ↔
    ∀ file ∈ outputs loader sheets, tree.file? (join output file.1) = some (.ofText file.2) := by
  constructor
  · intro h file hfile
    rcases mem_outputs.mp hfile with ⟨unit, hunit, rfl⟩ | ⟨sheet, hsheet, document, hdata, rfl⟩
    · exact h.code unit hunit
    · exact h.data sheet hsheet document hdata
  · intro h
    refine ⟨fun unit hunit => ?_, fun sheet hsheet document hdata => ?_⟩
    · exact h (join scriptsFolder unit.fileName, unit.text)
        (mem_outputs.mpr (Or.inl ⟨unit, hunit, rfl⟩))
    · exact h (join dataFolder (sheet.className ++ ".json"), document)
        (mem_outputs.mpr (Or.inr ⟨sheet, hsheet, document, hdata, rfl⟩))

/-- Outputs that lead to one place have one text. -/
def Agree (tree : FileTree) (output : String) (files : List (String × String)) : Prop :=
  ∀ file ∈ files, ∀ other ∈ files, ∀ place, tree.locate (join output file.1) = .ok place →
    tree.locate (join output other.1) = .ok place → file.2 = other.2

/-- **A tree holds the outputs written to it** if and only if those at one place agree. -/
theorem holds_iff_agree_outputs (h : tree.withOutputs output (outputs loader sheets) = .ok after) :
    after.Holds output loader sheets ↔ after.Agree output (outputs loader sheets) := by
  obtain ⟨-, made, -, -, hwrote⟩ := withOutputs_eq_ok h
  have hheld := holds_iff_agree hwrote
  simp only [placed, List.forall_mem_map] at hheld
  rw [holds_iff]
  refine hheld.trans ⟨fun hagree file hfile other hother place hplace hplace' => ?_, ?_⟩
  · exact FileContent.ofText_injective (hagree file hfile other hother place hplace hplace')
  · intro hagree file hfile other hother place hplace hplace'
    exact congrArg FileContent.ofText (hagree file hfile other hother place hplace hplace')

/-! ### Last names -/

theorem baseName_code (name : String) : baseName (name ++ ".cs") = baseName name ++ ".cs" :=
  baseName_append name (by decide)

theorem baseName_document (name : String) : baseName (name ++ ".json") = baseName name ++ ".json" :=
  baseName_append name (by decide)

theorem code_ne_document (name other : String) : name ++ ".cs" ≠ other ++ ".json" := by
  intro h
  have hlast := congrArg (fun text : String => text.toList.getLast?) h
  simp at hlast

/-- The units of the loader that are classes. -/
def classUnits (casing : Casing) : List String :=
  ["BaseSheetDataHelper", "DesignSheetDataHelper", "ConstantSheetDataHelper",
    "FullSheetDataHelper", "SheetDataNotFoundException"].map (Casing.pascal.convert casing) ++
    ["IsExternalInit"]

theorem nodup_classUnits (casing : Casing) : (classUnits casing).Nodup := by
  cases casing <;> decide +kernel

theorem classUnits_chars (casing : Casing) : ∀ name ∈ classUnits casing,
    '/' ∉ name.toList ∧ name.toList.getLast? ∉ [some 'a', some 'A'] := by
  cases casing <;> decide +kernel

/-- The unit that is an interface ends in a letter that ends no class, whatever leads it. -/
theorem interfaceUnit_chars (casing : Casing) :
    '/' ∉ (Casing.pascal.convert casing "DesignSheetData").toList ∧
      (Casing.pascal.convert casing "DesignSheetData").toList.getLast? ∈ [some 'a', some 'A'] := by
  cases casing <;> decide +kernel

/-- **The units of the loader have different last names** under all settings. -/
theorem nodup_baseNames (naming : NameStyle) (platforms : List Platform) :
    ((CSharp.loaderUnits naming platforms).map fun unit => baseName unit.fileName).Nodup := by
  set interface := Casing.pascal.convert naming.settings.interfaceName "DesignSheetData"
  set name := naming.settings.interfaceLead ++ interface with hname
  set classes := classUnits naming.settings.className
  -- the interface may have a lead with a `/` in it, so it is set apart from the classes
  have hperm : ((CSharp.loaderUnits naming platforms).map fun unit => baseName unit.fileName).Perm
      ((name :: classes).map fun name => baseName (name ++ ".cs")) := List.Perm.swap _ _ _
  have hstay : classes.map (fun name => baseName (name ++ ".cs")) = classes.map (· ++ ".cs") := by
    apply List.map_congr_left
    intro unit hunit
    rw [baseName_code, baseName_of_notMem (classUnits_chars _ unit hunit).1]
  rw [hperm.nodup_iff, List.map_cons, List.nodup_cons, hstay]
  refine ⟨?_, (nodup_classUnits _).map (fun a b hab => by simpa using hab)⟩
  intro hmem
  obtain ⟨unit, hunit, heq⟩ := List.mem_map.mp hmem
  obtain ⟨hslash, hlast⟩ := interfaceUnit_chars naming.settings.interfaceName
  rw [baseName_code, hname, baseName_append _ hslash] at heq
  have hunits : unit = baseName naming.settings.interfaceLead ++ interface := by
    simpa using heq
  -- a lead does not change the last letter, and no class ends like the interface
  have hsame : unit.toList.getLast? = interface.toList.getLast? := by
    rw [hunits, String.toList_append, List.getLast?_append]
    rcases List.mem_cons.mp hlast with h | h
    · rw [h]; rfl
    · rw [List.mem_singleton.mp h]; rfl
  exact (classUnits_chars _ unit hunit).2 (hsame ▸ hlast)

/-- A sheet whose files are named after its class. -/
structure NamedAfterClass (naming : NameStyle) (sheet : SheetOutput) : Prop where
  className : sheet.className = naming.recordName sheet.name
  fileName : sheet.code.fileName = sheet.className ++ ".cs"

/-- The files of every sheet that compiles are named after its class. -/
theorem namedAfterClass_of_compileLenient {settings : Settings} {source : Source}
    {sheet : SheetOutput} (h : sheet ∈ (settings.compileLenient source).1) :
    NamedAfterClass settings.names sheet := by
  rw [Settings.compileLenient_eq] at h
  obtain ⟨result, hresult, hsheet⟩ := List.mem_filterMap.mp h
  obtain ⟨⟨schema, grid⟩, -, rfl⟩ := List.mem_map.mp hresult
  obtain ⟨-, catalog, -, -, hcatalog, -, rfl⟩ :=
    Settings.compileSheet_eq_ok.mp (toOption_eq_some_iff.mp hsheet)
  have hnaming : catalog.naming = settings.names := (Catalog.madeIn_of_ofSchemas hcatalog).1
  exact ⟨by rw [← hnaming]; rfl, rfl⟩

/-- The class names of some sheets keep the files of a run apart: no two end in one name, and
none ends in the name of a unit. -/
def KeptApart (naming : NameStyle) (loader : List CSharp.CodeFile) (names : List String) : Prop :=
  (names.map fun name => baseName (naming.recordName name)).Nodup ∧
    ∀ name ∈ names, ∀ unit ∈ loader,
      baseName (naming.recordName name ++ ".cs") ≠ baseName unit.fileName

instance (naming : NameStyle) (loader : List CSharp.CodeFile) (names : List String) :
    Decidable (KeptApart naming loader names) :=
  inferInstanceAs (Decidable (_ ∧ _))

section Apart

variable {naming : NameStyle} {platforms : List Platform}
  (hnamed : ∀ sheet ∈ sheets, NamedAfterClass naming sheet)

include hnamed

theorem fileName_of_mem_code {unit : CSharp.CodeFile}
    (hunit : unit ∈ CSharp.loaderUnits naming platforms ++ sheets.map SheetOutput.code) :
    ∃ name, unit.fileName = name ++ ".cs" := by
  rcases List.mem_append.mp hunit with hunit | hunit
  · simp only [CSharp.loaderUnits, List.mem_cons, List.not_mem_nil, or_false] at hunit
    rcases hunit with rfl | rfl | rfl | rfl | rfl | rfl | rfl <;> exact ⟨_, rfl⟩
  · obtain ⟨sheet, hsheet, rfl⟩ := List.mem_map.mp hunit
    exact ⟨sheet.className, (hnamed sheet hsheet).fileName⟩

/-- An output is code or data by its last name. -/
theorem baseName_of_mem_outputs {file : String × String}
    (hfile : file ∈ outputs (CSharp.loaderUnits naming platforms) sheets) :
    (∃ unit ∈ CSharp.loaderUnits naming platforms ++ sheets.map SheetOutput.code,
      file = (join scriptsFolder unit.fileName, unit.text) ∧
      baseName file.1 = baseName unit.fileName ∧ ∃ base, baseName file.1 = base ++ ".cs") ∨
    ∃ sheet ∈ sheets, ∃ document, sheet.data = some document ∧
      file = (join dataFolder (sheet.className ++ ".json"), document) ∧
      baseName file.1 = baseName (naming.recordName sheet.name) ++ ".json" := by
  rcases mem_outputs.mp hfile with ⟨unit, hunit, rfl⟩ | ⟨sheet, hsheet, document, hdata, rfl⟩
  · obtain ⟨name, hname⟩ := fileName_of_mem_code hnamed hunit
    refine Or.inl ⟨unit, hunit, rfl, baseName_join _ _, baseName name, ?_⟩
    rw [baseName_join, hname, baseName_code]
  · refine Or.inr ⟨sheet, hsheet, document, hdata, rfl, ?_⟩
    rw [baseName_join, baseName_document, (hnamed sheet hsheet).className]

/-- The last name of an output is the last name of its place. -/
theorem getLast?_of_locate_output {file : String × String}
    (hfile : file ∈ outputs (CSharp.loaderUnits naming platforms) sheets)
    {place : List String} (hplace : tree.locate (join output file.1) = .ok place) :
    place.getLast? = some (baseName file.1) := by
  -- an extension makes the name longer than the names that lead nowhere new
  have hlong : 2 < (baseName file.1).length := by
    rcases baseName_of_mem_outputs hnamed hfile with
      ⟨_, _, _, _, base, hbase⟩ | ⟨_, _, _, _, _, hbase⟩
    · have hextension : ".cs".length = 3 := by decide
      rw [hbase, String.length_append]
      omega
    · have hextension : ".json".length = 5 := by decide
      rw [hbase, String.length_append]
      omega
  have hshort : ∀ name ∈ ["", ".", ".."], name.length ≤ 2 := by decide
  rw [← baseName_join output]
  apply baseName_of_locate hplace
  rw [baseName_join]
  intro hmem
  have := hshort _ hmem
  omega

variable (h : KeptApart naming (CSharp.loaderUnits naming platforms) (sheets.map SheetOutput.name))

include h

/-- All code of a run has different last names. -/
theorem nodup_code : ((CSharp.loaderUnits naming platforms ++ sheets.map SheetOutput.code).map
    fun unit => baseName unit.fileName).Nodup := by
  -- the code of a sheet is named after its class
  have hcode : (sheets.map SheetOutput.code).map (fun unit => baseName unit.fileName)
      = ((sheets.map SheetOutput.name).map fun name => baseName (naming.recordName name)).map
        (· ++ ".cs") := by
    simp only [List.map_map]
    apply List.map_congr_left
    intro sheet hsheet
    have hsheet := hnamed sheet hsheet
    show baseName sheet.code.fileName = baseName (naming.recordName sheet.name) ++ ".cs"
    rw [hsheet.fileName, hsheet.className, baseName_code]
  obtain ⟨hnodup, hunits⟩ := h
  rw [List.map_append, List.nodup_append, hcode]
  refine ⟨nodup_baseNames naming platforms, hnodup.map fun a b hab => by simpa using hab, ?_⟩
  intro base hbase other hother heq
  obtain ⟨unit, hunit, rfl⟩ := List.mem_map.mp hbase
  obtain ⟨last, hlast, rfl⟩ := List.mem_map.mp hother
  obtain ⟨name, hname, rfl⟩ := List.mem_map.mp hlast
  exact hunits name hname unit hunit ((baseName_code _).trans heq.symm)

/-- **Outputs of one last name are one output** if the class names keep them apart. -/
theorem eq_of_baseName_eq {file other : String × String}
    (hfile : file ∈ outputs (CSharp.loaderUnits naming platforms) sheets)
    (hother : other ∈ outputs (CSharp.loaderUnits naming platforms) sheets)
    (heq : baseName file.1 = baseName other.1) : file = other := by
  have hsheets : (sheets.map fun sheet => baseName (naming.recordName sheet.name)).Nodup := by
    have hnames := h.1
    rw [List.map_map] at hnames
    exact hnames
  -- code ends in `.cs` and data in `.json`, so only outputs of one kind can share a name
  rcases baseName_of_mem_outputs hnamed hfile with
    ⟨unit, hunit, rfl, hbase, base, hcs⟩ | ⟨sheet, hsheet, document, hdata, rfl, hjson⟩
  · rcases baseName_of_mem_outputs hnamed hother with
      ⟨unit', hunit', rfl, hbase', -⟩ | ⟨sheet, hsheet, document, hdata, rfl, hjson⟩
    · rw [hbase, hbase'] at heq
      rw [List.inj_on_of_nodup_map (nodup_code hnamed h) hunit hunit' heq]
    · exact absurd (hcs.symm.trans (heq.trans hjson)) (code_ne_document _ _)
  · rcases baseName_of_mem_outputs hnamed hother with
      ⟨unit, hunit, rfl, hbase, base, hcs⟩ | ⟨sheet', hsheet', document', hdata', rfl, hjson'⟩
    · exact absurd (hcs.symm.trans (heq.symm.trans hjson)) (code_ne_document _ _)
    · have hname : baseName (naming.recordName sheet.name)
          = baseName (naming.recordName sheet'.name) := by
        rw [hjson, hjson'] at heq
        simpa using heq
      obtain rfl := List.inj_on_of_nodup_map hsheets hsheet hsheet' hname
      rw [hdata] at hdata'
      rw [Option.some.inj hdata']

/-- **Outputs at one place agree** if the class names keep them apart. -/
theorem agree_of_keptApart :
    tree.Agree output (outputs (CSharp.loaderUnits naming platforms) sheets) := by
  intro file hfile other hother place hplace hplace'
  have hlast := getLast?_of_locate_output hnamed hfile hplace
  rw [getLast?_of_locate_output hnamed hother hplace'] at hlast
  rw [eq_of_baseName_eq hnamed h hfile hother (Option.some.inj hlast).symm]

end Apart

/-! ### Runs -/

theorem run_eq_ok {options : RunOptions} {summary : RunSummary}
    (h : tree.run options = .ok (summary, after)) : ∃ settings directory sheets,
      tree.loadSettings options = .ok settings ∧
      Directory.ofFolder options.input tree = .ok directory ∧
      settings.compileLenient (directory.source tree) = (sheets, summary.failures) ∧
      summary.compiled = sheets.map SheetOutput.name ∧
      (options.dryRun = false → tree.withOutputs options.output
        (outputs (CSharp.loaderUnits settings.names settings.platforms) sheets) = .ok after) := by
  unfold run at h
  dsimp only at h
  split at h
  · next settings hsettings =>
    obtain ⟨_, hloaded, h⟩ := bind_eq_ok.mp h
    cases hloaded
    obtain ⟨directory, hdirectory, h⟩ := bind_eq_ok.mp h
    refine ⟨settings, directory, (settings.compileLenient (directory.source tree)).1, hsettings,
      hdirectory, ?_⟩
    by_cases hdry : options.dryRun = true
    · rw [if_pos hdry] at h
      cases h
      exact ⟨rfl, rfl, fun hwrite => by simp [hwrite] at hdry⟩
    · rw [if_neg hdry] at h
      split at h
      · next hwritten =>
        cases h
        exact ⟨rfl, rfl, fun _ => hwritten⟩
      · cases h
  · cases h

/-- **When a run holds all its outputs, and all that it changes.**  A run that succeeds compiles
the sheets of its folder leniently.  It holds every unit of the loader, and code and data of
every sheet that compiles, if the class names of these sheets keep their files apart; and in
every case if and only if outputs that lead to one place have one text.  At each place it leaves
the last output that leads there, a folder made for the outputs, or what stood there before: a
sheet that fails leaves nothing. -/
theorem run_keeps_outputs {options : RunOptions} {summary : RunSummary}
    (hwrite : options.dryRun = false) (h : tree.run options = .ok (summary, after)) :
    ∃ settings directory sheets,
      tree.loadSettings options = .ok settings ∧
      Directory.ofFolder options.input tree = .ok directory ∧
      settings.compileLenient (directory.source tree) = (sheets, summary.failures) ∧
      summary.compiled = sheets.map SheetOutput.name ∧
      let loader := CSharp.loaderUnits settings.names settings.platforms
      (KeptApart settings.names loader summary.compiled →
        after.Holds options.output loader sheets) ∧
      (after.Holds options.output loader sheets ↔
        after.Agree options.output (outputs loader sheets)) ∧
      ∀ place, Leaves tree after options.output (outputs loader sheets) place := by
  obtain ⟨settings, directory, sheets, hsettings, hdirectory, hsheets, hcompiled, hwritten⟩ :=
    run_eq_ok h
  -- only sheets that compile write anything, and each is named after its class
  have hnamed : ∀ sheet ∈ sheets, NamedAfterClass settings.names sheet := by
    intro sheet hsheet
    have hmem : sheet ∈ (settings.compileLenient (directory.source tree)).1 := by
      rw [hsheets]
      exact hsheet
    exact namedAfterClass_of_compileLenient hmem
  have hiff := holds_iff_agree_outputs (hwritten hwrite)
  refine ⟨settings, directory, sheets, hsettings, hdirectory, hsheets, hcompiled, ?_, hiff,
    withOutputs_spec (hwritten hwrite)⟩
  intro hapart
  rw [hcompiled] at hapart
  exact hiff.mpr (agree_of_keptApart hnamed hapart)

end FileTree

namespace Depot

open FileTree

/-- A depot whose sheets are named in camel casing. -/
def depot (sheets : List (String × String)) : FileTree :=
  ⟨[(["sheetdata"], .folder),
    (["sheetdata", "config.toml"], .file (.ofText "[sheet]\ninput_notation = \"camel\"")),
    (["in"], .folder)] ++
    sheets.map fun sheet => (["in", sheet.1 ++ ".csv"], .file (.ofText sheet.2))⟩

def options : RunOptions := { input := "in", output := "out" }

def settings : Settings := { sheet := { casing := .camel } }

def loader : List CSharp.CodeFile := CSharp.loaderUnits settings.names settings.platforms

/-- A sheet with a row of data, and one that cannot be read. -/
def goods : FileTree :=
  depot [("item", "[design]\nname,type,isPrimaryKey\nid,int,true\n[name]\nid\n[data]\n7"),
    ("slot", "[shelf]")]

/-- One sheet compiles and the other fails; code and data of the first are held. -/
theorem run_keeps_goods : options.dryRun = false ∧ ∃ summary after sheets,
    goods.run options = .ok (summary, after) ∧ summary.compiled = ["item"] ∧
    summary.failures.length = 1 ∧ KeptApart settings.names loader summary.compiled ∧
    sheets.map SheetOutput.name = ["item"] ∧ after.Holds options.output loader sheets := by
  obtain ⟨⟨summary, after⟩, hrun, hcompiled, hfailures⟩ := exists_ok_of_decide
    (fun result : RunSummary × FileTree =>
      result.1.compiled = ["item"] ∧ result.1.failures.length = 1)
    (show ((goods.run options).toOption.any _) = true by decide +kernel)
  have hloaded : (goods.loadSettings options).toOption = some settings := by decide +kernel
  have hapart : KeptApart settings.names loader ["item"] := by decide +kernel
  obtain ⟨loaded, directory, sheets, hsettings, -, -, hnames, hheld, -⟩ :=
    run_keeps_outputs rfl hrun
  rw [toOption_eq_some_iff.mp hloaded] at hsettings
  cases hsettings
  replace hapart : KeptApart settings.names loader summary.compiled := hcompiled ▸ hapart
  exact ⟨rfl, summary, after, sheets, hrun, hcompiled, hfailures, hapart,
    hnames.symm.trans hcompiled, hheld hapart⟩

/-- Two sheets whose names differ in the case of their first letter. -/
def twins : FileTree := depot [("A", ""), ("a", "[enum:global],k\nname\nx")]

def twinsFolder : Directory := ⟨"in", [("A", .csv "in/A.csv"), ("a", .csv "in/a.csv")]⟩

/-- **A run may succeed and lose an output:** both sheets compile to one class, and the code of
the second replaces that of the first. -/
theorem run_loses_twin : twins.loadSettings options = .ok settings ∧
    Directory.ofFolder options.input twins = .ok twinsFolder ∧
    ∃ summary after, twins.run options = .ok (summary, after) ∧ summary.failures = [] ∧
      ¬ after.Holds options.output loader
        (settings.compileLenient (twinsFolder.source twins)).1 := by
  have hloaded : (twins.loadSettings options).toOption = some settings := by decide +kernel
  have hlisted : (Directory.ofFolder options.input twins).toOption = some twinsFolder := by
    decide +kernel
  obtain ⟨⟨summary, after⟩, hrun, hfailures, sheet, hsheet, hlost⟩ := exists_ok_of_decide
    (fun result : RunSummary × FileTree => result.1.failures = [] ∧
      ∃ sheet ∈ (settings.compileLenient (twinsFolder.source twins)).1,
        result.2.file? (join options.output (join scriptsFolder sheet.code.fileName))
          ≠ some (.ofText sheet.code.text))
    (show ((twins.run options).toOption.any _) = true by decide +kernel)
  refine ⟨toOption_eq_some_iff.mp hloaded, toOption_eq_some_iff.mp hlisted, summary, after, hrun,
    hfailures, fun hheld => hlost (hheld.code sheet.code ?_)⟩
  exact List.mem_append_right _ (List.mem_map_of_mem hsheet)

end Depot
end TypedSheets

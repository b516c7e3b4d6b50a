import TypedSheets.Files.Csv
import TypedSheets.Files.Tree
import TypedSheets.Source.Memory

/-!
# Sheets in a folder

The sheets of a folder are its files of comma separated values, each named after its
file, and the worksheets of its workbooks. Files whose name starts with a dot are left
out. Files are taken in the order of their names, so the listing does not hang on the
order in which the folder gives them. No two sheets may have one name.

## Main definitions

* `SheetPlace`, `Listing` — sheets by name, with their places.
* `FileKind.ofName?` — what a file is by its name.
* `Listing.ofEntries` — the sheets of a folder, up to the first error.
* `Directory`, `Directory.refresh`, `Directory.grid` — a folder as a source.
-/

namespace TypedSheets

/-- Where a sheet lies. -/
inductive SheetPlace where
  | csv (path : String)
  | worksheet (book sheet : String)
  deriving DecidableEq, Repr

/-- The file a sheet lies in. -/
def SheetPlace.path : SheetPlace → String
  | csv path => path
  | worksheet book _ => book

/-- Sheets by name, with their places. -/
abbrev Listing := List (String × SheetPlace)

/-! ### Names of files -/

/-- Characters parted at their last dot. -/
def splitLastDot? : List Char → Option (List Char × List Char)
  | [] => none
  | c :: cs =>
    match splitLastDot? cs with
    | some (stem, extension) => some (c :: stem, extension)
    | none => if c = '.' then some ([], cs) else none

/-- A kind of file that holds sheets. -/
inductive FileKind where
  /-- One sheet of the given name. -/
  | csv (sheet : String)
  | workbook
  deriving DecidableEq, Repr

/-- What a file is by its name. The case of its extension does not count. -/
def FileKind.ofName? (name : String) : Option FileKind :=
  match splitLastDot? name.toList with
  | none => none
  | some (stem, extension) =>
    match Casing.lower (String.ofList extension) with
    | "csv" => some (.csv (String.ofList stem))
    | "xlsx" => some .workbook
    | _ => none

/-- Whether a file is left out by its name. -/
def isDotFile (name : String) : Bool := name.startsWith "."

/-! ### Listings -/

namespace Listing

/-- Files with one more put in, by name. -/
def insertByName (file : String × FileContent) :
    List (String × FileContent) → List (String × FileContent)
  | [] => [file]
  | other :: rest =>
    if file.1 ≤ other.1 then file :: other :: rest else other :: insertByName file rest

/-- Files by name. -/
def sortByName (files : List (String × FileContent)) : List (String × FileContent) :=
  files.foldr insertByName []

/-- The files of a folder that are not left out. -/
def visibleFiles (entries : List (String × Entry)) : List (String × FileContent) :=
  entries.filterMap fun (name, entry) =>
    match entry with
    | .file content => if isDotFile name then none else some (name, content)
    | .folder => none

/-- The sheets of a file under a given folder, or why they cannot be listed. -/
def sheetsOf (root : String) (name : String) (content : FileContent) :
    List (Except RunError (String × SheetPlace)) :=
  let path := FileTree.join root name
  match FileKind.ofName? name with
  | none => []
  | some (.csv sheet) => [.ok (sheet, .csv path)]
  | some .workbook =>
    match content.worksheets? with
    | some sheets => sheets.map fun sheet => .ok (sheet.name, .worksheet path sheet.name)
    | none => [.error (.source (.unopenableBook path))]

/-- A listing with further sheets, up to the first error or name that is taken. -/
def extend : Listing → List (Except RunError (String × SheetPlace)) →
    Listing × Option RunError
  | listing, [] => (listing, none)
  | listing, .error e :: _ => (listing, some e)
  | listing, .ok (name, place) :: rest =>
    match OrderedMap.get? listing name with
    | some first => (listing, some (.repeatedSheet name first.path place.path))
    | none => extend (listing ++ [(name, place)]) rest

/-- The sheets of a folder up to the first error, and that error. -/
def ofEntries (root : String) (entries : List (String × Entry)) : Listing × Option RunError :=
  extend [] ((sortByName (visibleFiles entries)).flatMap fun (name, content) =>
    sheetsOf root name content)

end Listing

/-! ### Folders as sources -/

/-- A folder as a source: what was listed last. -/
structure Directory where
  root : String
  listing : Listing
  deriving DecidableEq, Repr

namespace Directory

/-- Lists the sheets of a folder anew. On an error, what was listed before it is kept. -/
def refresh (directory : Directory) (tree : FileTree) : Directory × Option RunError :=
  match tree.children directory.root with
  | .error e => ({ directory with listing := [] }, some (.file e))
  | .ok entries =>
    let (listing, error) := Listing.ofEntries directory.root entries
    ({ directory with listing }, error)

/-- The source of a folder. -/
def ofFolder (root : String) (tree : FileTree) : Except RunError Directory :=
  match refresh ⟨root, []⟩ tree with
  | (directory, none) => .ok directory
  | (_, some e) => .error e

/-- The grid of a file of comma separated values. -/
def csvGrid (tree : FileTree) (path : String) : Except RunError Grid :=
  match tree.file? path with
  | some (.bytes data) =>
    match Csv.rows? data with
    | some rows => .ok (Grid.ofRows rows)
    | none => .error (.source (.unreadableFile path))
  | _ => .error (.source (.unreadableFile path))

/-- The grid of a worksheet of a workbook. -/
def worksheetGrid (tree : FileTree) (book sheet : String) : Except RunError Grid :=
  match (tree.file? book).bind FileContent.worksheets? with
  | none => .error (.source (.unopenableBook book))
  | some sheets =>
    match (sheets.find? fun candidate => candidate.name = sheet).bind Worksheet.grid? with
    | some grid => .ok grid
    | none => .error (.source (.unreadableWorksheet sheet book))

/-- The grid of a sheet, from what its file holds now. -/
def grid (directory : Directory) (tree : FileTree) (name : String) : Except RunError Grid :=
  match OrderedMap.get? directory.listing name with
  | none => .error (.unknownSheet name)
  | some (.csv path) => csvGrid tree path
  | some (.worksheet book sheet) => worksheetGrid tree book sheet

/-- A folder as a source of sheets. -/
def source (directory : Directory) (tree : FileTree) : Source :=
  ⟨directory.listing.map Prod.fst, directory.grid tree⟩

end Directory
end TypedSheets

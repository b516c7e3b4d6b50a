import TypedSheets.Files.Workbook
import TypedSheets.RunError

/-!
# Trees of files

The files a run reads and writes, as a value. A place is the list of names that lead to
a file or folder without detours; the empty one is the folder a run starts in. A path is
a text that leads to a place name by name, and every name in it starts from a folder that
exists, also one that only goes back. A file holds bytes, or a workbook that is decoded
already.

## Main definitions

* `FileContent`, `Entry`, `FileTree` — files, folders and trees of them.
* `FileTree.locate` — the place a path leads to.
* `FileTree.find?`, `FileTree.file?`, `FileTree.children` — what stands there.
* `FileTree.createFolders`, `FileTree.write`, `FileTree.remove` — changes.
-/

namespace TypedSheets

/-- What a file holds. -/
inductive FileContent where
  | bytes (data : List UInt8)
  | workbook (sheets : List Worksheet)
  deriving DecidableEq, Repr

/-- The text a file holds, if its bytes are one. -/
def FileContent.text? : FileContent → Option String
  | bytes data => String.fromUTF8? ⟨data.toArray⟩
  | workbook _ => none

/-- The worksheets a file holds, if it is a workbook. -/
def FileContent.worksheets? : FileContent → Option (List Worksheet)
  | bytes _ => none
  | workbook sheets => some sheets

/-- The content of a text file. -/
def FileContent.ofText (text : String) : FileContent := bytes text.toUTF8.data.toList

/-- What stands under a path. -/
inductive Entry where
  | file (content : FileContent)
  | folder
  deriving DecidableEq, Repr

/-- A tree of files: what stands under each path. -/
structure FileTree where
  entries : List (List String × Entry) := []
  deriving DecidableEq, Repr

namespace FileTree

/-! ### Places -/

/-- Whether a place is a folder of every tree: the one a run starts in, one above it, or
the root of all files. -/
def isFixed (place : List String) : Bool := place = ["/"] || place.all (· = "..")

/-- What stands at a place. -/
def entry? (tree : FileTree) (place : List String) : Option Entry :=
  if isFixed place then some .folder
  else (tree.entries.find? fun entry => entry.1 = place).map Prod.snd

/-- The folder that a place lies in. -/
def parent (place : List String) : List String :=
  if place = ["/"] then place
  else if isFixed place then place ++ [".."]
  else place.dropLast

/-- The tree without what stands at a place. -/
def remove (tree : FileTree) (place : List String) : FileTree :=
  ⟨tree.entries.filter fun entry => entry.1 ≠ place⟩

/-- The tree with something put at a place. -/
def put (tree : FileTree) (place : List String) (entry : Entry) : FileTree :=
  ⟨(tree.remove place).entries ++ [(place, entry)]⟩

/-! ### Paths -/

/-- How many bytes a name may have. -/
def maxNameBytes : Nat := 255

/-- How many bytes a path may have. -/
def maxPathBytes : Nat := 4095

/-- A path followed by another one, which may start from the root of all files instead. -/
def join (path name : String) : String :=
  if name.startsWith "/" then name
  else if path.isEmpty || path.endsWith "/" then path ++ name
  else path ++ "/" ++ name

/-- The place where a path starts. -/
def startOf (path : String) : List String := if path.startsWith "/" then ["/"] else []

/-- The names of a path. -/
def names (path : String) : List String := (path.toList.splitOn '/').map String.ofList

/-- The place that a name leads to from a folder. One dot stays, two dots go back. -/
def enter (tree : FileTree) (place : List String) (name : String) :
    Except FileError (List String) :=
  match tree.entry? place with
  | none => .error .notFound
  | some (.file _) => .error .notFolder
  | some .folder =>
    if name = "" ∨ name = "." then .ok place
    else if name = ".." then .ok (parent place)
    else if name.utf8ByteSize ≤ maxNameBytes then .ok (place ++ [name])
    else .error .longName

/-- Checks that a path is one at all. The empty one leads nowhere. -/
def checkPath (path : String) : Except FileError Unit :=
  if path.isEmpty then .error .notFound
  else if path.toList.contains '\x00' then .error .zeroByte
  else if path.utf8ByteSize ≤ maxPathBytes then .ok ()
  else .error .longName

/-- The place that a path leads to, where nothing has to stand. -/
def locate (tree : FileTree) (path : String) : Except FileError (List String) := do
  checkPath path
  (names path).foldlM tree.enter (startOf path)

/-- What stands where a path leads to. -/
def find? (tree : FileTree) (path : String) : Option Entry :=
  match tree.locate path with
  | .ok place => tree.entry? place
  | .error _ => none

/-- The file under a path. -/
def file? (tree : FileTree) (path : String) : Option FileContent :=
  match tree.find? path with
  | some (.file content) => some content
  | _ => none

/-- What lies directly in a folder, by name. -/
def children (tree : FileTree) (path : String) : Except FileError (List (String × Entry)) := do
  let folder ← tree.locate path
  match tree.entry? folder with
  | none => throw .notFound
  | some (.file _) => throw .notFolder
  | some .folder =>
    return tree.entries.filterMap fun (place, entry) =>
      match place.getLast? with
      | some name => if place.dropLast = folder then some (name, entry) else none
      | none => none

/-! ### Changes -/

/-- The tree with a folder where a name leads to, if nothing stands there, and its place. -/
def createFolder (state : FileTree × List String) (name : String) :
    Except FileError (FileTree × List String) := do
  let (tree, place) := state
  let place ← tree.enter place name
  match tree.entry? place with
  | some _ => return (tree, place)
  | none => return (tree.put place .folder, place)

/-- The tree with the folders of a path, from the outermost in. -/
def createFolders (tree : FileTree) (path : String) : Except FileError FileTree := do
  let (tree, place) ← (names path).foldlM createFolder (tree, startOf path)
  match tree.entry? place with
  | some .folder => return tree
  | _ => throw .taken

/-- The tree with a file written, whose folder has to exist. -/
def write (tree : FileTree) (path : String) (content : FileContent) :
    Except FileError FileTree := do
  let place ← tree.locate path
  match tree.entry? place with
  | some .folder => throw .isFolder
  | _ => return tree.put place (.file content)

end FileTree
end TypedSheets

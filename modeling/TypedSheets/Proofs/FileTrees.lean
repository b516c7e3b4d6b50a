import TypedSheets.Files.Tree
import TypedSheets.Proofs.Result

/-!
# What changes to a tree of files do

Where a path leads hangs on folders alone: a tree that keeps the folders of another one leads
every path of that one to the same place.  Creating folders adds to a tree on the way of a
path, and nowhere else.  Writing files one after another keeps all folders; each place then
holds what was written there last, and every other place what it held before.

The last name of the place a path leads to is the last name of the path itself, so files with
different last names never meet.

## Main results

* `entry?_put` — what stands in a tree after a change.
* `KeepsFolders.locate` — paths lead to the same places when folders are kept.
* `createFolders_spec` — what creating the folders of a path adds.
* `writes_spec` — what a run of writes leaves at every place.
* `holds_iff_agree` — all files written are held if and only if those at one place agree.
* `baseName_of_locate` — the last name of a place.
-/

namespace TypedSheets

theorem FileContent.ofText_injective {text other : String}
    (h : FileContent.ofText text = FileContent.ofText other) : text = other := by
  unfold FileContent.ofText at h
  have hdata : text.toUTF8.data = other.toUTF8.data := by
    apply Array.toList_inj.mp
    exact FileContent.bytes.inj h
  have hbytes : text.toUTF8 = other.toUTF8 := ByteArray.ext hdata
  exact String.toByteArray_inj.mp hbytes

namespace FileTree

variable {tree after : FileTree} {place : List String} {path : String}

/-! ### Entries -/

/-- A fixed place is a folder of every tree. -/
theorem isFixed_eq_false (h : tree.entry? place ≠ some .folder) : isFixed place = false := by
  by_contra hfixed
  rw [Bool.not_eq_false] at hfixed
  exact h (if_pos hfixed)

/-- **What is put at a place stands there,** and nothing else changes. -/
theorem entry?_put (h : tree.entry? place ≠ some .folder) (entry : Entry) (other : List String) :
    entry? (tree.put place entry) other
      = if other = place then some entry else tree.entry? other := by
  have hfixed := isFixed_eq_false h
  unfold put remove entry?
  by_cases hother : other = place
  · subst hother
    have hnone : (tree.entries.filter fun old => old.1 ≠ other).find? (fun old => old.1 = other)
        = none := by simp
    rw [if_neg (by simp [hfixed]), List.find?_append, hnone, if_pos rfl]
    simp
  · -- entries at other places are neither dropped nor added
    have hkept : (tree.entries.filter fun old => old.1 ≠ place).find? (fun old => old.1 = other)
        = tree.entries.find? fun old => old.1 = other := by
      rw [List.find?_filter]
      congr 1
      funext old
      by_cases hold : old.1 = other <;> simp [hold, hother]
    have hnew : [(place, entry)].find? (fun old => old.1 = other) = none := by
      simp [Ne.symm hother]
    rw [if_neg hother, List.find?_append, hkept, hnew, Option.or_none]

/-! ### Trees that keep folders -/

/-- The folders of a tree are folders of another one. -/
def KeepsFolders (tree after : FileTree) : Prop :=
  ∀ place, tree.entry? place = some .folder → after.entry? place = some .folder

theorem KeepsFolders.refl (tree : FileTree) : KeepsFolders tree tree := fun _ h => h

theorem KeepsFolders.trans {last : FileTree} (h : KeepsFolders tree after)
    (h' : KeepsFolders after last) : KeepsFolders tree last :=
  fun place hplace => h' place (h place hplace)

/-- Where a name leads hangs on the folder it starts from, and on nothing else in the tree. -/
theorem enter_eq_ok {name : String} {next : List String} (h : tree.enter place name = .ok next) :
    tree.entry? place = some .folder ∧ ∀ other : FileTree,
      other.entry? place = some .folder → other.enter place name = .ok next := by
  rw [enter] at h
  split at h
  · cases h
  · cases h
  · next hfolder =>
    refine ⟨hfolder, fun other hother => ?_⟩
    rw [enter, hother]
    exact h

theorem KeepsFolders.foldlM_enter (h : KeepsFolders tree after) {stop : List String} :
    ∀ {names : List String} {start : List String}, names.foldlM tree.enter start = .ok stop →
      names.foldlM after.enter start = .ok stop := by
  intro names
  induction names with
  | nil => intro start hstop; exact hstop
  | cons name names ih =>
    intro start hstop
    rw [List.foldlM_cons] at hstop ⊢
    obtain ⟨next, hnext, hstop⟩ := bind_eq_ok.mp hstop
    obtain ⟨hfolder, hother⟩ := enter_eq_ok hnext
    exact bind_eq_ok.mpr ⟨next, hother after (h start hfolder), ih hstop⟩

/-- **Paths lead to the same places when folders are kept.** -/
theorem KeepsFolders.locate (h : KeepsFolders tree after) (hlocate : tree.locate path = .ok place) :
    after.locate path = .ok place := by
  obtain ⟨_, hcheck, hlocate⟩ := bind_eq_ok.mp hlocate
  exact bind_eq_ok.mpr ⟨_, hcheck, h.foldlM_enter hlocate⟩

/-- Two trees with the same folders lead every path to the same place. -/
theorem locate_iff_of_folders
    (h : ∀ other, after.entry? other = some .folder ↔ tree.entry? other = some .folder) :
    after.locate path = .ok place ↔ tree.locate path = .ok place :=
  ⟨KeepsFolders.locate fun other => (h other).mp, KeepsFolders.locate fun other => (h other).mpr⟩

/-! ### Creating folders -/

/-- A place that a path passes, or leads to. -/
def OnTheWay (tree : FileTree) (path : String) (place : List String) : Prop :=
  ∃ front, front <+: names path ∧ front.foldlM tree.enter (startOf path) = .ok place

theorem OnTheWay.mono (h : KeepsFolders tree after) (hway : tree.OnTheWay path place) :
    after.OnTheWay path place := by
  obtain ⟨front, hfront, hplace⟩ := hway
  exact ⟨front, hfront, h.foldlM_enter hplace⟩

/-- A place where a folder is new. -/
def NewFolder (tree after : FileTree) (place : List String) : Prop :=
  tree.entry? place = none ∧ after.entry? place = some .folder

theorem keepsFolders_of_newFolder
    (h : ∀ place, after.entry? place = tree.entry? place ∨ NewFolder tree after place) :
    KeepsFolders tree after := by
  intro place hplace
  rcases h place with hsame | ⟨-, hnew⟩
  · rw [hsame, hplace]
  · exact hnew

theorem createFolder_cases {name : String} {next : List String}
    (h : createFolder (tree, place) name = .ok (after, next)) :
    tree.enter place name = .ok next ∧
      (after = tree ∨ tree.entry? next = none ∧ after = tree.put next .folder) := by
  obtain ⟨target, henter, h⟩ := bind_eq_ok.mp h
  split at h
  · cases h
    exact ⟨henter, Or.inl rfl⟩
  · next hnone =>
    cases h
    exact ⟨henter, Or.inr ⟨hnone, rfl⟩⟩

/-- One step adds a folder at most, where the name leads to. -/
theorem entry?_createFolder {name : String} {next : List String}
    (h : createFolder (tree, place) name = .ok (after, next)) (other : List String) :
    after.entry? other = tree.entry? other ∨ other = next ∧ NewFolder tree after other := by
  obtain ⟨-, rfl | ⟨hnone, rfl⟩⟩ := createFolder_cases h
  · exact Or.inl rfl
  · have hplace : tree.entry? next ≠ some .folder := by simp [hnone]
    have hput := entry?_put hplace .folder other
    by_cases hother : other = next
    · subst hother
      rw [if_pos rfl] at hput
      exact Or.inr ⟨rfl, hnone, hput⟩
    · rw [if_neg hother] at hput
      exact Or.inl hput

theorem keepsFolders_createFolder {name : String} {next : List String}
    (h : createFolder (tree, place) name = .ok (after, next)) : KeepsFolders tree after :=
  keepsFolders_of_newFolder fun other => (entry?_createFolder h other).imp_right And.right

theorem foldlM_createFolder {stop : List String} : ∀ {names : List String} {tree : FileTree}
    {start : List String}, names.foldlM createFolder (tree, start) = .ok (after, stop) →
    KeepsFolders tree after ∧ ∀ place, after.entry? place = tree.entry? place ∨
      NewFolder tree after place ∧
        ∃ front, front <+: names ∧ front.foldlM after.enter start = .ok place := by
  intro names
  induction names with
  | nil =>
    intro tree start h
    cases h
    exact ⟨.refl after, fun _ => Or.inl rfl⟩
  | cons name names ih =>
    intro tree start h
    rw [List.foldlM_cons] at h
    obtain ⟨⟨mid, next⟩, hstep, h⟩ := bind_eq_ok.mp h
    obtain ⟨hkeeps, hrest⟩ := ih h
    have hfirst := keepsFolders_createFolder hstep
    -- the first name is entered in the last tree as in the first one
    have henter : after.enter start name = .ok next := by
      obtain ⟨hfolder, hother⟩ := enter_eq_ok (createFolder_cases hstep).1
      exact hother after (hkeeps start (hfirst start hfolder))
    refine ⟨hfirst.trans hkeeps, fun place => ?_⟩
    rcases hrest place with hsame | ⟨hnew, front, hfront, hplace⟩
    · rcases entry?_createFolder hstep place with hold | ⟨rfl, hnone, hmid⟩
      · exact Or.inl (hsame.trans hold)
      · refine Or.inr ⟨⟨hnone, hsame.trans hmid⟩, [name], by simp, ?_⟩
        rw [List.foldlM_cons, henter]
        rfl
    · have hbefore : tree.entry? place = none := by
        rcases entry?_createFolder hstep place with hold | ⟨-, hnone, -⟩
        · exact hold ▸ hnew.1
        · exact hnone
      refine Or.inr ⟨⟨hbefore, hnew.2⟩, name :: front, by simpa using hfront, ?_⟩
      rw [List.foldlM_cons, henter]
      exact hplace

/-- **Creating the folders of a path** adds folders on its way where nothing stood, and changes
nothing else. -/
theorem createFolders_spec (h : tree.createFolders path = .ok after) :
    ∀ place, after.entry? place = tree.entry? place ∨
      NewFolder tree after place ∧ after.OnTheWay path place := by
  obtain ⟨⟨made, stop⟩, hmade, h⟩ := bind_eq_ok.mp h
  dsimp only at h
  split at h
  · cases h
    exact (foldlM_createFolder hmade).2
  · cases h

/-! ### Writing files -/

theorem write_eq_ok {content : FileContent} (h : tree.write path content = .ok after) :
    ∃ place, tree.locate path = .ok place ∧ tree.entry? place ≠ some .folder ∧
      after = tree.put place (.file content) := by
  obtain ⟨place, hlocate, h⟩ := bind_eq_ok.mp h
  split at h
  · cases h
  · next hplace =>
    cases h
    exact ⟨place, hlocate, fun hfolder => hplace hfolder, rfl⟩

/-- Files written one after another. -/
def writes (tree : FileTree) (files : List (String × FileContent)) : Except FileError FileTree :=
  files.foldlM (fun tree file => tree.write file.1 file.2) tree

/-- The last of some files that leads to a place. -/
def LastAt (tree : FileTree) (files : List (String × FileContent)) (place : List String)
    (file : String × FileContent) : Prop :=
  ∃ earlier later, files = earlier ++ file :: later ∧ tree.locate file.1 = .ok place ∧
    ∀ other ∈ later, tree.locate other.1 ≠ .ok place

/-- What a tree holds after some files were written to it. -/
structure Wrote (tree after : FileTree) (files : List (String × FileContent)) : Prop where
  /-- Both have the same folders. -/
  folders : ∀ place, after.entry? place = some .folder ↔ tree.entry? place = some .folder
  /-- Every file has a place. -/
  located : ∀ file ∈ files, ∃ place, tree.locate file.1 = .ok place
  /-- A place holds the last file that leads there, or else what it held before. -/
  entries : ∀ place,
    (∃ file, tree.LastAt files place file ∧ after.entry? place = some (.file file.2)) ∨
      (∀ file ∈ files, tree.locate file.1 ≠ .ok place) ∧ after.entry? place = tree.entry? place

theorem Wrote.locate_iff {files : List (String × FileContent)} (h : Wrote tree after files) :
    after.locate path = .ok place ↔ tree.locate path = .ok place :=
  locate_iff_of_folders h.folders

theorem Wrote.nil (tree : FileTree) : Wrote tree tree [] where
  folders _ := Iff.rfl
  located _ h := by cases h
  entries _ := Or.inr ⟨by simp, rfl⟩

/-- One more file, written before the others. -/
theorem Wrote.cons {content : FileContent} {files : List (String × FileContent)}
    (hlocate : tree.locate path = .ok place) (hplace : tree.entry? place ≠ some .folder)
    (h : Wrote (tree.put place (.file content)) after files) :
    Wrote tree after ((path, content) :: files) := by
  have hput := entry?_put hplace (.file content)
  have hfolders : ∀ other, entry? (tree.put place (.file content)) other = some .folder ↔
      tree.entry? other = some .folder := by
    intro other
    rw [hput other]
    by_cases hother : other = place
    · subst hother
      simp [hplace]
    · rw [if_neg hother]
  have hiff : ∀ other target, (tree.put place (.file content)).locate other = .ok target ↔
      tree.locate other = .ok target := fun other target => locate_iff_of_folders hfolders
  refine ⟨fun other => (h.folders other).trans (hfolders other), ?_, fun other => ?_⟩
  · intro file hfile
    rcases List.mem_cons.mp hfile with rfl | hfile
    · exact ⟨place, hlocate⟩
    · obtain ⟨target, htarget⟩ := h.located file hfile
      exact ⟨target, (hiff _ _).mp htarget⟩
  · rcases h.entries other with ⟨file, ⟨earlier, later, rfl, hat, hlater⟩, hentry⟩ | ⟨hnone, hsame⟩
    · refine Or.inl ⟨file, ⟨(path, content) :: earlier, later, rfl, (hiff _ _).mp hat, ?_⟩, hentry⟩
      exact fun g hg hlocated => hlater g hg ((hiff _ _).mpr hlocated)
    · have hlater : ∀ g ∈ files, tree.locate g.1 ≠ .ok other :=
        fun g hg hlocated => hnone g hg ((hiff _ _).mpr hlocated)
      by_cases hother : other = place
      · -- no later file leads here, so that the first one is the last
        subst hother
        refine Or.inl ⟨(path, content), ⟨[], files, rfl, hlocate, hlater⟩, ?_⟩
        rw [hsame, hput, if_pos rfl]
      · refine Or.inr ⟨?_, by rw [hsame, hput, if_neg hother]⟩
        intro file hfile
        rcases List.mem_cons.mp hfile with rfl | hfile
        · intro hlocated
          rw [hlocate] at hlocated
          exact hother (Except.ok.inj hlocated).symm
        · exact hlater file hfile

/-- **A run of writes** leaves at every place the last file that leads there, or else what stood
there before. -/
theorem writes_spec : ∀ {files : List (String × FileContent)} {tree : FileTree},
    tree.writes files = .ok after → Wrote tree after files := by
  intro files
  induction files with
  | nil =>
    intro tree h
    cases h
    exact .nil after
  | cons file files ih =>
    intro tree h
    rw [writes, List.foldlM_cons] at h
    obtain ⟨mid, hwrite, h⟩ := bind_eq_ok.mp h
    obtain ⟨place, hlocate, hplace, rfl⟩ := write_eq_ok hwrite
    exact .cons hlocate hplace (ih h)

theorem file?_of_locate {content : FileContent} (hlocate : tree.locate path = .ok place)
    (h : tree.entry? place = some (.file content)) : tree.file? path = some content := by
  unfold file? find?
  rw [hlocate]
  simp only [h]

/-- **All files written are held** if and only if those that lead to one place agree. -/
theorem holds_iff_agree {files : List (String × FileContent)} (h : Wrote tree after files) :
    (∀ file ∈ files, after.file? file.1 = some file.2) ↔
      ∀ file ∈ files, ∀ other ∈ files, ∀ place, after.locate file.1 = .ok place →
        after.locate other.1 = .ok place → file.2 = other.2 := by
  constructor
  · intro hheld file hfile other hother place hplace hplace'
    have hfind : after.file? file.1 = after.file? other.1 := by
      unfold file? find?
      rw [hplace, hplace']
    rw [hheld file hfile, hheld other hother] at hfind
    exact Option.some.inj hfind
  · intro hagree file hfile
    obtain ⟨place, hplace⟩ := h.located file hfile
    have hat := h.locate_iff.mpr hplace
    -- the last file of those that lead to a place is the one held there
    rcases h.entries place with ⟨last, ⟨earlier, later, hfiles, hlast, -⟩, hentry⟩ | ⟨hnone, -⟩
    · have hmem : last ∈ files := by rw [hfiles]; simp
      have heq := hagree file hfile last hmem place hat (h.locate_iff.mpr hlast)
      rw [heq]
      exact file?_of_locate hat hentry
    · exact absurd hplace (hnone file hfile)

/-! ### Last names -/

/-- The last name of a path. -/
def baseName (path : String) : String := (names path).getLastD ""

theorem baseName_of_notMem (h : '/' ∉ path.toList) : baseName path = path := by
  rw [baseName, names, List.splitOn_eq_singleton h]
  simp

theorem names_append_slash (front name : String) :
    names (front ++ "/" ++ name) = names front ++ names name := by
  have hlist : (front ++ "/" ++ name).toList = front.toList ++ '/' :: name.toList := by simp
  rw [names, hlist, List.splitOn_append_cons_self, List.map_append]
  rfl

theorem names_ne_nil (path : String) : names path ≠ [] := by
  simp [names, List.splitOn_ne_nil]

/-- The names of a path are those before the last one, and that one. -/
theorem exists_names_eq (path : String) : ∃ front, names path = front ++ [baseName path] := by
  have hlast := List.dropLast_append_getLast (names_ne_nil path)
  refine ⟨(names path).dropLast, ?_⟩
  rw [baseName, List.getLastD_eq_getLast?, List.getLast?_eq_some_getLast (names_ne_nil path)]
  exact hlast.symm

theorem baseName_append_slash (front name : String) :
    baseName (front ++ "/" ++ name) = baseName name := by
  obtain ⟨rest, hrest⟩ := exists_names_eq name
  rw [baseName, names_append_slash, hrest, ← List.append_assoc]
  simp

/-- A path is a single name, or has one after its last slash. -/
theorem exists_parted (path : String) : '/' ∉ path.toList ∨
    ∃ front name, path = front ++ "/" ++ name ∧ '/' ∉ name.toList := by
  have hlist : ∀ cs : List Char, '/' ∉ cs ∨
      ∃ front name, cs = front ++ '/' :: name ∧ '/' ∉ name := by
    intro cs
    induction cs with
    | nil => exact Or.inl (by simp)
    | cons c cs ih =>
      rcases ih with hcs | ⟨front, name, rfl, hname⟩
      · by_cases hc : c = '/'
        · exact Or.inr ⟨[], cs, by rw [hc]; rfl, hcs⟩
        · exact Or.inl (by simp [Ne.symm hc, hcs])
      · exact Or.inr ⟨c :: front, name, rfl, hname⟩
  rcases hlist path.toList with h | ⟨front, name, h, hname⟩
  · exact Or.inl h
  · refine Or.inr ⟨.ofList front, .ofList name, ?_, by simpa using hname⟩
    apply String.toList_inj.mp
    simp [h]

/-- An extension belongs to the last name. -/
theorem baseName_append (name : String) {extension : String} (h : '/' ∉ extension.toList) :
    baseName (name ++ extension) = baseName name ++ extension := by
  rcases exists_parted name with hname | ⟨front, base, rfl, hbase⟩
  · rw [baseName_of_notMem hname, baseName_of_notMem (by simp [hname, h])]
  · rw [String.append_assoc, baseName_append_slash, baseName_append_slash,
      baseName_of_notMem hbase, baseName_of_notMem (by simp [hbase, h])]

theorem endsWith_slash (h : path.endsWith "/" = true) : ∃ front, path = front ++ "/" := by
  rw [← String.endsWith_toSlice, String.Slice.endsWith_string_iff, String.copy_toSlice] at h
  obtain ⟨front, hfront⟩ := h
  refine ⟨.ofList front, String.toList_inj.mp ?_⟩
  simpa using hfront.symm

/-- A path that follows another one keeps its last name. -/
theorem baseName_join (path name : String) : baseName (join path name) = baseName name := by
  unfold join
  split
  · rfl
  · split
    · next h =>
      rcases Bool.or_eq_true _ _ ▸ h with hempty | hends
      · rw [String.isEmpty_iff.mp hempty, String.empty_append]
      · obtain ⟨front, rfl⟩ := endsWith_slash hends
        exact baseName_append_slash front name
    · exact baseName_append_slash path name

/-- **The place a path leads to** has the last name of the path, unless that name is empty or
made of one or two dots. -/
theorem baseName_of_locate (h : tree.locate path = .ok place)
    (hname : baseName path ∉ ["", ".", ".."]) : place.getLast? = some (baseName path) := by
  obtain ⟨front, hfront⟩ := exists_names_eq path
  obtain ⟨_, -, h⟩ := bind_eq_ok.mp h
  -- only the last name is entered last, and it is appended as it is
  rw [hfront, List.foldlM_append] at h
  obtain ⟨folder, -, h⟩ := bind_eq_ok.mp h
  rw [List.foldlM_cons] at h
  obtain ⟨next, henter, h⟩ := bind_eq_ok.mp h
  cases h
  simp only [List.mem_cons, List.not_mem_nil, or_false, not_or] at hname
  unfold enter at henter
  split at henter
  · cases henter
  · cases henter
  · rw [if_neg (by simp [hname]), if_neg hname.2.2] at henter
    split at henter
    · cases henter
      simp
    · cases henter

end FileTree
end TypedSheets

import CopyrightHeader.Proofs.FileTree

/-! Giving a file new content, as a change of contents.

To put a file in place of a file moves no entry, so it is the change that overwrites one location.
Changes compose, and one that keeps every content keeps the tree.
-/

set_option autoImplicit false

namespace CopyrightHeader

namespace Directory

theorem mapFiles_eq_self (d : Directory) (change : List FileName → ByteArray → ByteArray)
    (keeps : ∀ location ∈ d.files, ∀ content, change location content = content) :
    d.mapFiles change = d := by
  induction d generalizing change with
  | nil => rfl
  | leaf name entry rest ih =>
    cases entry with
    | file content =>
      have here := keeps [name] List.mem_cons_self content
      have below := ih change fun location member => keeps location (List.mem_cons_of_mem _ member)
      rw [mapFiles, here, below]
    | link target => rw [mapFiles, ih change keeps]
  | folder name inner rest ihInner ih =>
    have inside := ihInner (fun location => change (name :: location))
      fun location member => keeps _ (List.mem_append_left _ (List.mem_map_of_mem member))
    have below := ih change fun location member => keeps location (List.mem_append_right _ member)
    rw [mapFiles, inside, below]

theorem mapFiles_mapFiles (first second : List FileName → ByteArray → ByteArray) (d : Directory) :
    (d.mapFiles first).mapFiles second =
      d.mapFiles fun location content => second location (first location content) := by
  induction d generalizing first second with
  | nil => rfl
  | leaf name entry rest ih => cases entry <;> simp only [mapFiles, ih]
  | folder name inner rest ihInner ih => simp only [mapFiles, ihInner, ih]

/-- Changes that agree on what the files say change a tree alike. -/
theorem Ordered.mapFiles_congr {d : Directory} (ordered : d.Ordered)
    {first second : List FileName → ByteArray → ByteArray}
    (agree : ∀ location content, d.nodeAt location = some (.leaf (.file content)) →
      first location content = second location content) :
    d.mapFiles first = d.mapFiles second := by
  induction d generalizing first second with
  | nil => rfl
  | leaf name entry rest ih =>
    have below : rest.mapFiles first = rest.mapFiles second := by
      apply ih ordered.2
      intro location content found
      obtain ⟨next, deeper, rfl, member⟩ := exists_name_of_nodeAt (ne_nil_of_nodeAt_file found) found
      have differ : name ≠ next := fun same => FileName.lt_irrefl _ (same ▸ ordered.1 next member)
      exact agree _ _ ((nodeAt_leaf_of_ne differ entry rest deeper).trans found)
    cases entry with
    | file content =>
      have here := agree [name] content (by simp [nodeAt, find?])
      rw [Directory.mapFiles, Directory.mapFiles, here, below]
    | link target => rw [Directory.mapFiles, Directory.mapFiles, below]
  | folder name inner rest ihInner ih =>
    have below : rest.mapFiles first = rest.mapFiles second := by
      apply ih ordered.2.2
      intro location content found
      obtain ⟨next, deeper, rfl, member⟩ := exists_name_of_nodeAt (ne_nil_of_nodeAt_file found) found
      have differ : name ≠ next := fun same => FileName.lt_irrefl _ (same ▸ ordered.1 next member)
      exact agree _ _ ((nodeAt_folder_of_ne differ inner rest deeper).trans found)
    have inside : (inner.mapFiles fun location => first (name :: location)) =
        inner.mapFiles fun location => second (name :: location) := by
      apply ihInner ordered.2.1
      intro location content found
      obtain ⟨next, deeper, rfl, -⟩ := exists_name_of_nodeAt (ne_nil_of_nodeAt_file found) found
      exact agree _ _ ((nodeAt_folder_self inner rest next deeper).trans found)
    rw [Directory.mapFiles, Directory.mapFiles, inside, below]

theorem mapFiles_eq_self_of_not_mem_names {d : Directory} {name : FileName}
    {change : List FileName → ByteArray → ByteArray}
    (elsewhere : ∀ location content, location.head? ≠ some name → change location content = content)
    (absent : name ∉ d.names) : d.mapFiles change = d := by
  apply mapFiles_eq_self
  intro location member content
  obtain ⟨first, below, rfl, inNames⟩ := head?_of_mem_files member
  apply elsewhere
  rintro ⟨⟩
  exact absent inNames

theorem Ordered.insert_mapFiles {d : Directory} (ordered : d.Ordered) {name : FileName} {node : Node}
    (found : d.find? name = some node) (change : List FileName → ByteArray → ByteArray)
    (elsewhere : ∀ location content,
      location.head? ≠ some name → change location content = content) :
    d.insert name (node.mapFiles change [name]) = d.mapFiles change := by
  -- Names increase, so the wanted one is not in front of an entry that comes before it, and the
  -- entries behind it have other names.
  have inFront {first : FileName} {rest : Directory} (above : ∀ other ∈ rest.names, first < other)
      (member : name = first ∨ name ∈ rest.names) : ¬ name < first := by
    intro lt
    rcases member with rfl | member
    · exact FileName.lt_irrefl _ lt
    · exact FileName.lt_irrefl _ (FileName.lt_trans lt (above name member))
  have notBehind {rest : Directory} (above : ∀ other ∈ rest.names, name < other) :
      rest.mapFiles change = rest :=
    mapFiles_eq_self_of_not_mem_names elsewhere fun member =>
      FileName.lt_irrefl _ (above name member)
  induction d with
  | nil => simp [find?] at found
  | leaf first entry rest ih =>
    have names := List.mem_cons.1 (mem_names_of_find? found)
    rw [Directory.insert, if_neg (inFront ordered.1 names)]
    by_cases same : name = first
    · subst same
      have here : node = .leaf entry := by simpa [find?] using found.symm
      rw [if_pos rfl, here]
      cases entry <;> simp only [Node.mapFiles, cons, Directory.mapFiles, notBehind ordered.1]
    · rw [find?, if_neg (Ne.symm same)] at found
      rw [if_neg same, ih ordered.2 found]
      cases entry with
      | file content =>
        rw [Directory.mapFiles, elsewhere [first] content (by simpa using Ne.symm same)]
      | link target => rfl
  | folder first inner rest _ ih =>
    have names := List.mem_cons.1 (mem_names_of_find? found)
    rw [Directory.insert, if_neg (inFront ordered.1 names)]
    by_cases same : name = first
    · subst same
      have here : node = .folder inner := by simpa [find?] using found.symm
      rw [if_pos rfl, here]
      simp only [Node.mapFiles, cons, Directory.mapFiles, notBehind ordered.1,
        List.singleton_append]
    · rw [find?, if_neg (Ne.symm same)] at found
      have inside : (inner.mapFiles fun location => change (first :: location)) = inner := by
        apply mapFiles_eq_self
        intro location _ content
        exact elsewhere _ content (by simpa using Ne.symm same)
      rw [if_neg same, ih ordered.2.2 found, Directory.mapFiles, inside]

/-- Putting a file in place of a file overwrites its location. -/
theorem Ordered.modifyAt_insert {d : Directory} (ordered : d.Ordered) {location : List FileName}
    {name : FileName} {old : ByteArray} (new : ByteArray)
    (found : d.nodeAt (location ++ [name]) = some (.leaf (.file old))) :
    d.modifyAt (·.insert name (.leaf (.file new))) location =
      d.mapFiles (overwrite (location ++ [name]) new) := by
  induction location generalizing d with
  | nil =>
    have here : d.find? name = some (.leaf (.file old)) := by
      rwa [List.nil_append, nodeAt_singleton] at found
    have changed := ordered.insert_mapFiles here (overwrite [name] new)
      fun other content differ => overwrite_of_head?_ne differ [] new content
    have written : Node.mapFiles (overwrite [name] new) [name] (.leaf (.file old)) =
        .leaf (.file new) := by
      simp [Node.mapFiles, overwrite]
    rw [written] at changed
    exact changed
  | cons first location ih =>
    obtain ⟨deeper, folderHere⟩ : ∃ inner, d.nodeAt [first] = some (.folder inner) := by
      cases location with
      | nil => exact holdsFolder_of_nodeAt_append found
      | cons next location => exact holdsFolder_of_nodeAt_append found
    have here : d.find? first = some (.folder deeper) := by
      rwa [nodeAt_singleton] at folderHere
    have inside : deeper.nodeAt (location ++ [name]) = some (.leaf (.file old)) := by
      rw [← nodeAt_append folderHere]
      exact found
    -- The folder is changed below, and put back under its name.
    have changed := ordered.insert_mapFiles here (overwrite (first :: location ++ [name]) new)
      fun other content differ => overwrite_of_head?_ne differ (location ++ [name]) new content
    have below : (fun below => overwrite (first :: location ++ [name]) new ([first] ++ below)) =
        overwrite (location ++ [name]) new := by
      funext below content
      simp [overwrite]
    rw [Node.mapFiles, below, ← ih (ordered.inner_of_find? here) inside] at changed
    simp only [Directory.modifyAt, here]
    exact changed

end Directory

namespace FileSystem

theorem eq_of_top {first second : FileSystem} (top : first.top = second.top)
    (working : first.workingDirectory = second.workingDirectory) : first = second := by
  cases first
  cases second
  simp_all

theorem mapFiles_keep (files : FileSystem) : files.mapFiles (fun _ content => content) = files :=
  eq_of_top (Directory.mapFiles_eq_self _ _ fun _ _ _ => rfl) rfl

theorem mapFiles_mapFiles (first second : List FileName → ByteArray → ByteArray)
    (files : FileSystem) : (files.mapFiles first).mapFiles second =
      files.mapFiles fun location content => second location (first location content) :=
  eq_of_top (Directory.mapFiles_mapFiles first second files.top) rfl

theorem mapFiles_congr {files : FileSystem} {first second : List FileName → ByteArray → ByteArray}
    (agree : ∀ location content, files.top.nodeAt location = some (.leaf (.file content)) →
      first location content = second location content) :
    files.mapFiles first = files.mapFiles second :=
  eq_of_top (files.ordered.mapFiles_congr agree) rfl

theorem nodeAt_mapFiles (change : List FileName → ByteArray → ByteArray) (files : FileSystem)
    (location : List FileName) : (files.mapFiles change).top.nodeAt location =
      (files.top.nodeAt location).map (Node.mapFiles change location) :=
  Directory.nodeAt_mapFiles change files.top location

theorem nodeAt_mapFiles_eq_file {change : List FileName → ByteArray → ByteArray}
    {files : FileSystem} {location : List FileName} {content : ByteArray} :
    (files.mapFiles change).top.nodeAt location = some (.leaf (.file content)) ↔
      ∃ old, files.top.nodeAt location = some (.leaf (.file old)) ∧ change location old = content := by
  rw [nodeAt_mapFiles]
  rcases files.top.nodeAt location with _ | ((old | target) | inner)
  all_goals simp [Node.mapFiles]

theorem nodeAt_overwrite_self {files : FileSystem} {location : List FileName} {old : ByteArray}
    (found : files.top.nodeAt location = some (.leaf (.file old))) (new : ByteArray) :
    (files.mapFiles (overwrite location new)).top.nodeAt location = some (.leaf (.file new)) := by
  rw [nodeAt_mapFiles, found]
  simp [Node.mapFiles, overwrite]

theorem nodeAt_overwrite_of_ne {files : FileSystem} {location other : List FileName}
    (apart : other ≠ location) {content : ByteArray}
    (found : files.top.nodeAt other = some (.leaf (.file content))) (new : ByteArray) :
    (files.mapFiles (overwrite location new)).top.nodeAt other = some (.leaf (.file content)) := by
  rw [nodeAt_mapFiles, found]
  simp [Node.mapFiles, overwrite, apart]

theorem putLeaf_eq_mapFiles {files : FileSystem} {location : List FileName} {old : ByteArray}
    (new : ByteArray) (found : files.top.nodeAt location = some (.leaf (.file old))) :
    files.putLeaf location (.file new) = files.mapFiles (overwrite location new) := by
  rcases List.eq_nil_or_concat location with rfl | ⟨front, name, rfl⟩
  · simp [Directory.nodeAt] at found
  · rw [List.concat_eq_append] at found ⊢
    have changed := files.ordered.modifyAt_insert new found
    have stays : (files.top.modifyAt (·.insert name (.leaf (.file new))) front).HoldsFolder
        files.workingDirectory := changed ▸ files.startsInFolder.mapFiles _
    simp only [putLeaf, put, List.getLast?_concat, List.dropLast_concat]
    rw [withTop, dif_pos stays]
    exact eq_of_top changed rfl

end FileSystem

end CopyrightHeader

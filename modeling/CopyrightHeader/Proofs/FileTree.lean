import CopyrightHeader.FileSystem.Files

/-! Trees that differ in the content of their files.

A change of contents keeps every entry where it is, so a look-up in the changed tree is the changed
look-up. Giving one file new content is such a change: it touches one location and no other.
-/

set_option autoImplicit false

namespace CopyrightHeader

instance : Std.Irrefl (α := FileName) (· < ·) := ⟨FileName.lt_irrefl⟩

/-- The change that gives the file at one location its content. -/
def overwrite (location : List FileName) (content : ByteArray) :
    List FileName → ByteArray → ByteArray :=
  fun other old => if other = location then content else old

theorem overwrite_of_head?_ne {name : FileName} {location : List FileName}
    (differ : location.head? ≠ some name) (below : List FileName) (new content : ByteArray) :
    overwrite (name :: below) new location content = content :=
  if_neg fun same => differ (by rw [same]; rfl)

namespace Directory

/-! ## Look-ups -/

@[simp] theorem nodeAt_singleton (d : Directory) (name : FileName) :
    d.nodeAt [name] = d.find? name := by
  cases entry : d.find? name <;> simp [nodeAt, entry]

theorem mem_names_of_find? {d : Directory} {name : FileName} {node : Node}
    (found : d.find? name = some node) : name ∈ d.names := by
  induction d with
  | nil => simp [find?] at found
  | leaf other entry rest ih =>
    rw [find?] at found
    split at found
    · next same => exact same ▸ List.mem_cons_self
    · exact List.mem_cons_of_mem _ (ih found)
  | folder other inner rest _ ih =>
    rw [find?] at found
    split at found
    · next same => exact same ▸ List.mem_cons_self
    · exact List.mem_cons_of_mem _ (ih found)

theorem nodeAt_leaf_of_ne {name first : FileName} (differ : name ≠ first) (entry : Leaf)
    (rest : Directory) (below : List FileName) :
    (leaf name entry rest).nodeAt (first :: below) = rest.nodeAt (first :: below) := by
  simp only [nodeAt, find?, if_neg differ]

theorem nodeAt_folder_of_ne {name first : FileName} (differ : name ≠ first)
    (inner rest : Directory) (below : List FileName) :
    (folder name inner rest).nodeAt (first :: below) = rest.nodeAt (first :: below) := by
  simp only [nodeAt, find?, if_neg differ]

theorem exists_name_of_nodeAt {d : Directory} {location : List FileName} {node : Node}
    (down : location ≠ []) (found : d.nodeAt location = some node) :
    ∃ first below, location = first :: below ∧ first ∈ d.names := by
  obtain ⟨first, below, rfl⟩ := List.exists_cons_of_ne_nil down
  refine ⟨first, below, rfl, ?_⟩
  cases entry : d.find? first with
  | none => simp [nodeAt, entry] at found
  | some node => exact mem_names_of_find? entry

theorem ne_nil_of_nodeAt_file {d : Directory} {location : List FileName} {content : ByteArray}
    (found : d.nodeAt location = some (.leaf (.file content))) : location ≠ [] := by
  rintro rfl
  simp [nodeAt] at found

/-- What is found behind an entry is found in front of it too, since names are not repeated. -/
theorem Ordered.nodeAt_leaf {name : FileName} {entry : Leaf} {rest : Directory}
    (ordered : (leaf name entry rest).Ordered) {location : List FileName} {node : Node}
    (down : location ≠ []) (found : rest.nodeAt location = some node) :
    (leaf name entry rest).nodeAt location = some node := by
  obtain ⟨first, below, rfl, inNames⟩ := exists_name_of_nodeAt down found
  have differ : name ≠ first := fun same => FileName.lt_irrefl _ (same ▸ ordered.1 first inNames)
  exact (nodeAt_leaf_of_ne differ entry rest below).trans found

theorem Ordered.nodeAt_folder {name : FileName} {inner rest : Directory}
    (ordered : (folder name inner rest).Ordered) {location : List FileName} {node : Node}
    (down : location ≠ []) (found : rest.nodeAt location = some node) :
    (folder name inner rest).nodeAt location = some node := by
  obtain ⟨first, below, rfl, inNames⟩ := exists_name_of_nodeAt down found
  have differ : name ≠ first := fun same => FileName.lt_irrefl _ (same ▸ ordered.1 first inNames)
  exact (nodeAt_folder_of_ne differ inner rest below).trans found

theorem nodeAt_append {d inner : Directory} {location : List FileName}
    (found : d.nodeAt location = some (.folder inner)) (below : List FileName) :
    d.nodeAt (location ++ below) = inner.nodeAt below := by
  induction location generalizing d with
  | nil =>
    have same : d = inner := Node.folder.inj (Option.some.inj found)
    rw [same, List.nil_append]
  | cons name location ih =>
    cases entry : d.find? name with
    | none => simp [nodeAt, entry] at found
    | some node =>
      cases location with
      | nil =>
        simp only [nodeAt, entry, Option.some.injEq] at found
        cases below with
        | nil => simp [nodeAt, entry, found]
        | cons next below => simp [nodeAt, entry, found]
      | cons next location =>
        cases node with
        | leaf => simp [nodeAt, entry] at found
        | folder deeper =>
          simp only [nodeAt, entry] at found
          simpa only [List.cons_append, nodeAt, entry] using ih found

theorem holdsFolder_of_nodeAt_append {d : Directory} {location : List FileName} {name : FileName}
    {below : List FileName} {node : Node}
    (found : d.nodeAt (location ++ name :: below) = some node) : d.HoldsFolder location := by
  rw [HoldsFolder]
  induction location generalizing d with
  | nil => exact ⟨d, rfl⟩
  | cons first location ih =>
    cases entry : d.find? first with
    | none => simp [nodeAt, entry] at found
    | some other =>
      cases other with
      | leaf => cases location <;> simp [nodeAt, entry] at found
      | folder deeper =>
        cases location with
        | nil => exact ⟨deeper, by simp [nodeAt, entry]⟩
        | cons next location =>
          simp only [List.cons_append, nodeAt, entry] at found ⊢
          exact ih found

theorem HoldsFolder.dropLast {d : Directory} {location : List FileName}
    (holds : d.HoldsFolder location) : d.HoldsFolder location.dropLast := by
  rcases List.eq_nil_or_concat location with rfl | ⟨front, name, rfl⟩
  · exact holds
  · obtain ⟨inner, found⟩ := holds
    rw [List.concat_eq_append] at found ⊢
    rw [List.dropLast_concat]
    exact holdsFolder_of_nodeAt_append found

/-- A path starts in a folder, be it from the top. -/
theorem HoldsFolder.start {d : Directory} {location : List FileName}
    (holds : d.HoldsFolder location) (path : Path) :
    d.HoldsFolder (if path.isAbsolute then [] else location) := by
  split
  · exact ⟨d, rfl⟩
  · exact holds

theorem Ordered.inner_of_nodeAt {d inner : Directory} (ordered : d.Ordered)
    {location : List FileName} (found : d.nodeAt location = some (.folder inner)) :
    inner.Ordered := by
  induction location generalizing d with
  | nil =>
    have same : d = inner := Node.folder.inj (Option.some.inj found)
    exact same ▸ ordered
  | cons name location ih =>
    obtain ⟨deeper, folder⟩ : ∃ deeper, d.nodeAt [name] = some (.folder deeper) := by
      cases location with
      | nil => exact ⟨inner, found⟩
      | cons next location => exact holdsFolder_of_nodeAt_append found
    have inside := nodeAt_append folder location
    rw [List.singleton_append, found] at inside
    rw [nodeAt_singleton] at folder
    exact ih (ordered.inner_of_find? folder) inside.symm

/-! ## The locations of the files -/

theorem head?_of_mem_files {d : Directory} {location : List FileName} (member : location ∈ d.files) :
    ∃ name below, location = name :: below ∧ name ∈ d.names := by
  induction d generalizing location with
  | nil => simp [files] at member
  | leaf name entry rest ih =>
    have inRest (member : location ∈ rest.files) :
        ∃ first below, location = first :: below ∧ first ∈ (leaf name entry rest).names := by
      obtain ⟨first, below, same, inNames⟩ := ih member
      exact ⟨first, below, same, List.mem_cons_of_mem _ inNames⟩
    cases entry with
    | file content =>
      rcases List.mem_cons.1 member with rfl | member
      · exact ⟨name, [], rfl, List.mem_cons_self⟩
      · exact inRest member
    | link target => exact inRest member
  | folder name inner rest _ ih =>
    rcases List.mem_append.1 member with member | member
    · obtain ⟨below, -, rfl⟩ := List.mem_map.1 member
      exact ⟨name, below, rfl, List.mem_cons_self⟩
    · obtain ⟨first, below, same, inNames⟩ := ih member
      exact ⟨first, below, same, List.mem_cons_of_mem _ inNames⟩

/-- The locations come in the order of their names, compared from the top down. -/
theorem Ordered.increasing_files {d : Directory} (ordered : d.Ordered) : d.files.Pairwise (· < ·) := by
  induction d with
  | nil => exact .nil
  | leaf name entry rest ih =>
    cases entry with
    | file content =>
      refine List.pairwise_cons.2 ⟨fun location member => ?_, ih ordered.2⟩
      obtain ⟨first, below, rfl, inNames⟩ := head?_of_mem_files member
      exact List.cons_lt_cons_iff.2 (.inl (ordered.1 first inNames))
    | link target => exact ih ordered.2
  | folder name inner rest ihInner ih =>
    refine List.pairwise_append.2 ⟨?_, ih ordered.2.2, ?_⟩
    · exact List.pairwise_map.2 ((ihInner ordered.2.1).imp fun less =>
        List.cons_lt_cons_iff.2 (.inr ⟨rfl, less⟩))
    · intro inInner member location memberRest
      obtain ⟨below, -, rfl⟩ := List.mem_map.1 member
      obtain ⟨first, deeper, rfl, inNames⟩ := head?_of_mem_files memberRest
      exact List.cons_lt_cons_iff.2 (.inl (ordered.1 first inNames))

/-- Every file stands at one location. -/
theorem Ordered.nodup_files {d : Directory} (ordered : d.Ordered) : d.files.Nodup := by
  refine ordered.increasing_files.imp fun {location other} less same => ?_
  exact List.lt_irrefl location (same ▸ less)

theorem Ordered.nodeAt_of_mem_files {d : Directory} (ordered : d.Ordered) {location : List FileName}
    (member : location ∈ d.files) : ∃ content, d.nodeAt location = some (.leaf (.file content)) := by
  induction d generalizing location with
  | nil => simp [files] at member
  | leaf name entry rest ih =>
    have inRest (member : location ∈ rest.files) :
        ∃ content, (leaf name entry rest).nodeAt location = some (.leaf (.file content)) := by
      obtain ⟨content, found⟩ := ih ordered.2 member
      exact ⟨content, ordered.nodeAt_leaf (ne_nil_of_nodeAt_file found) found⟩
    cases entry with
    | file content =>
      rcases List.mem_cons.1 member with rfl | member
      · exact ⟨content, by simp [nodeAt, find?]⟩
      · exact inRest member
    | link target => exact inRest member
  | folder name inner rest ihInner ih =>
    rcases List.mem_append.1 member with member | member
    · obtain ⟨below, inInner, rfl⟩ := List.mem_map.1 member
      obtain ⟨content, found⟩ := ihInner ordered.2.1 inInner
      obtain ⟨next, deeper, rfl, -⟩ := head?_of_mem_files inInner
      exact ⟨content, (nodeAt_folder_self inner rest next deeper).trans found⟩
    · obtain ⟨content, found⟩ := ih ordered.2.2 member
      exact ⟨content, ordered.nodeAt_folder (ne_nil_of_nodeAt_file found) found⟩

theorem mem_files_of_nodeAt {d : Directory} {location : List FileName} {content : ByteArray}
    (found : d.nodeAt location = some (.leaf (.file content))) : location ∈ d.files := by
  obtain ⟨first, below, rfl⟩ := List.exists_cons_of_ne_nil (ne_nil_of_nodeAt_file found)
  induction d generalizing first below with
  | nil => simp [nodeAt, find?] at found
  | leaf name entry rest ih =>
    by_cases here : name = first
    · cases below with
      | nil =>
        simp only [nodeAt, find?, if_pos here, Option.some.injEq, Node.leaf.injEq] at found
        rw [found, here]
        exact List.mem_cons_self
      | cons next below => simp [nodeAt, find?, here] at found
    · rw [nodeAt_leaf_of_ne here] at found
      have inRest := ih first below found
      cases entry with
      | file other => exact List.mem_cons_of_mem _ inRest
      | link target => exact inRest
  | folder name inner rest ihInner ih =>
    by_cases here : name = first
    · cases below with
      | nil => simp [nodeAt, find?, here] at found
      | cons next below =>
        rw [here, nodeAt_folder_self] at found
        rw [files, here]
        exact List.mem_append_left _ (List.mem_map_of_mem (ihInner next below found))
    · rw [nodeAt_folder_of_ne here] at found
      exact List.mem_append_right _ (ih first below found)

theorem Ordered.mem_files_iff {d : Directory} (ordered : d.Ordered) {location : List FileName} :
    location ∈ d.files ↔ ∃ content, d.nodeAt location = some (.leaf (.file content)) :=
  ⟨ordered.nodeAt_of_mem_files, fun ⟨_, found⟩ => mem_files_of_nodeAt found⟩

end Directory

end CopyrightHeader

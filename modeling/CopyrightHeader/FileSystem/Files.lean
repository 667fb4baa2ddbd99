import CopyrightHeader.FileSystem.Basic

/-! The regular files of a tree: where they are, and the same tree with other content in them.

Links are not followed, so every file stands at exactly one location.
-/

set_option autoImplicit false

namespace CopyrightHeader

namespace Directory

/-- The locations of the regular files, folder by folder in the order of the entries. -/
def files : Directory → List (List FileName)
  | .nil => []
  | .leaf name (.file _) rest => [name] :: rest.files
  | .leaf _ (.link _) rest => rest.files
  | .folder name inner rest => inner.files.map (name :: ·) ++ rest.files

/-- The tree with the content of every regular file changed, by its location. -/
def mapFiles (change : List FileName → ByteArray → ByteArray) : Directory → Directory
  | .nil => .nil
  | .leaf name (.file content) rest =>
    .leaf name (.file (change [name] content)) (rest.mapFiles change)
  | .leaf name (.link target) rest => .leaf name (.link target) (rest.mapFiles change)
  | .folder name inner rest =>
    .folder name (inner.mapFiles fun location => change (name :: location)) (rest.mapFiles change)

@[simp] theorem names_mapFiles (change : List FileName → ByteArray → ByteArray) (d : Directory) :
    (d.mapFiles change).names = d.names := by
  induction d generalizing change with
  | nil => rfl
  | leaf name entry rest ih => cases entry <;> simp [mapFiles, names, ih]
  | folder name inner rest _ ih => simp [mapFiles, names, ih]

theorem Ordered.mapFiles {d : Directory} (ordered : d.Ordered)
    (change : List FileName → ByteArray → ByteArray) : (d.mapFiles change).Ordered := by
  induction d generalizing change with
  | nil => trivial
  | leaf name entry rest ih =>
    obtain ⟨above, ordered⟩ := ordered
    have above' : ∀ other ∈ (rest.mapFiles change).names, name < other := by simpa using above
    cases entry with
    | file content => exact ⟨above', ih ordered change⟩
    | link target => exact ⟨above', ih ordered change⟩
  | folder name inner rest ihInner ih =>
    obtain ⟨above, orderedInner, ordered⟩ := ordered
    have above' : ∀ other ∈ (rest.mapFiles change).names, name < other := by simpa using above
    exact ⟨above', ihInner orderedInner _, ih ordered change⟩

end Directory

/-- What a location holds once the contents are changed. -/
def Node.mapFiles (change : List FileName → ByteArray → ByteArray) (location : List FileName) :
    Node → Node
  | .leaf (.file content) => .leaf (.file (change location content))
  | .leaf (.link target) => .leaf (.link target)
  | .folder inner => .folder (inner.mapFiles fun below => change (location ++ below))

namespace Directory

theorem find?_mapFiles (change : List FileName → ByteArray → ByteArray) (d : Directory)
    (name : FileName) :
    (d.mapFiles change).find? name = (d.find? name).map (Node.mapFiles change [name]) := by
  induction d with
  | nil => rfl
  | leaf other entry rest ih =>
    cases entry with
    | file content =>
      simp only [mapFiles, find?]
      split
      · next same => rw [same]; rfl
      · exact ih
    | link target =>
      simp only [mapFiles, find?]
      split
      · rfl
      · exact ih
  | folder other inner rest _ ih =>
    simp only [mapFiles, find?]
    split
    · next same => rw [same]; rfl
    · exact ih

theorem nodeAt_mapFiles (change : List FileName → ByteArray → ByteArray) (d : Directory)
    (location : List FileName) :
    (d.mapFiles change).nodeAt location = (d.nodeAt location).map (Node.mapFiles change location) := by
  induction location generalizing d change with
  | nil => rfl
  | cons name location ih =>
    simp only [nodeAt, find?_mapFiles]
    cases d.find? name with
    | none => rfl
    | some node =>
      cases location with
      | nil => rfl
      -- Inside the folder the change is the one seen from there.
      | cons next location =>
        cases node with
        | leaf entry => cases entry <;> rfl
        | folder inner =>
          simp only [Option.map_some, Node.mapFiles]
          rw [ih]
          cases inner.nodeAt (next :: location) with
          | none => rfl
          | some node => cases node with
            | leaf entry => cases entry <;> rfl
            | folder deeper => rfl

theorem HoldsFolder.mapFiles {d : Directory} {location : List FileName}
    (holds : d.HoldsFolder location) (change : List FileName → ByteArray → ByteArray) :
    (d.mapFiles change).HoldsFolder location := by
  obtain ⟨inner, here⟩ := holds
  exact ⟨_, by rw [nodeAt_mapFiles, here]; rfl⟩

end Directory

/-- The file system with the content of every regular file changed, by its location. -/
def FileSystem.mapFiles (files : FileSystem) (change : List FileName → ByteArray → ByteArray) :
    FileSystem :=
  { files with
    top := files.top.mapFiles change
    ordered := files.ordered.mapFiles change
    startsInFolder := files.startsInFolder.mapFiles change }

end CopyrightHeader

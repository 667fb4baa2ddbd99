import CopyrightHeader.Proofs.PathResolution
import CopyrightHeader.Walk

/-! The files of a walk, with the places they stand at.

Every path that a walk collects is that of a file of the tree. Unless it is too long to be used at
all it leads there for every purpose, and no two of the paths lead to one place. None of this hangs
on what the files say.
-/

set_option autoImplicit false

namespace CopyrightHeader

/-- A collected file: its path, where it stands and what it says. -/
structure Source where
  path : Path
  location : List FileName
  content : ByteArray

namespace FileSystem

/-- The source stands in the tree, and its path leads to it. -/
def Holds (files : FileSystem) (source : Source) : Prop :=
  files.top.nodeAt source.location = some (.leaf (.file source.content)) ∧
    (source.path.isTooLong = false → ∀ purpose,
      files.resolve purpose source.path =
        .ok (.node source.location (.leaf (.file source.content))))

theorem resolve_mapFiles (change : List FileName → ByteArray → ByteArray) (files : FileSystem)
    (purpose : Purpose) (path : Path) :
    (files.mapFiles change).resolve purpose path =
      (files.resolve purpose path).map (Place.mapFiles change) := by
  unfold resolve
  split
  · rfl
  · split
    · rfl
    · split
      · rfl
      · exact Directory.descend_mapFiles change (Directory.followLink_mapFiles change _) _ _

theorem resolve_eq_ok {files : FileSystem} {purpose : Purpose} {path : Path} {place : Place} :
    files.resolve purpose path = .ok place ↔
      path.text ≠ "" ∧ '\x00' ∉ path.text.toList ∧ path.isTooLong = false ∧
        files.top.descend purpose (files.top.followLink purpose Directory.linkLimit)
          (if path.isAbsolute then [] else files.workingDirectory) path.steps = .ok place := by
  unfold resolve
  by_cases empty : path.text = ""
  · simp [empty]
  · by_cases nul : '\x00' ∈ path.text.toList
    · simp [empty, nul]
    · by_cases long : path.isTooLong
      · simp [empty, nul, long]
      · simp [empty, nul, long]

theorem exists_error_of_isTooLong {path : Path} (long : path.isTooLong) (files : FileSystem)
    (purpose : Purpose) : ∃ error, files.resolve purpose path = .error error := by
  cases found : files.resolve purpose path with
  | error error => exact ⟨error, rfl⟩
  | ok place =>
    have := (resolve_eq_ok.1 found).2.2.1
    simp [long] at this

/-- Looking at a path ends where its use ends, unless it ends at a link. -/
theorem resolve_inspect_cases (files : FileSystem) (path : Path) :
    files.resolve .inspect path = files.resolve .use path ∨
      ∃ location target, files.resolve .inspect path = .ok (.node location (.leaf (.link target))) := by
  unfold resolve
  split
  · exact .inl rfl
  · split
    · exact .inl rfl
    · split
      · exact .inl rfl
      · exact Directory.looksFirst_descend (Directory.looksFirst_followLink _) _ _

theorem nodeAt_of_resolve {files : FileSystem} {purpose : Purpose} {path : Path}
    {location : List FileName} {node : Node}
    (found : files.resolve purpose path = .ok (.node location node)) :
    files.top.nodeAt location = some node :=
  Directory.tellsNodes_descend (Directory.tellsNodes_followLink _) _ _ location node
    (resolve_eq_ok.1 found).2.2.2

theorem resolve_below {files : FileSystem} {purpose : Purpose} {root : Path}
    {location : List FileName} {inner : Directory}
    (found : files.resolve purpose root = .ok (.node location (.folder inner))) {name : FileName}
    {below : List FileName} {content : ByteArray}
    (file : files.top.nodeAt (location ++ name :: below) = some (.leaf (.file content)))
    (short : (root.below (name :: below)).isTooLong = false) (other : Purpose) :
    files.resolve other (root.below (name :: below)) =
      .ok (.node (location ++ name :: below) (.leaf (.file content))) := by
  obtain ⟨notEmpty, free, -, leads⟩ := resolve_eq_ok.1 found
  obtain ⟨final, shape, steps⟩ := root.steps_eq
  rw [steps] at leads
  refine resolve_eq_ok.2 ⟨Path.text_below_ne_empty notEmpty _,
    Path.nul_not_mem_below notEmpty free _, short, ?_⟩
  rw [Path.isAbsolute_below notEmpty, Path.steps_below notEmpty]
  exact Directory.leadsBelow_descend (Directory.leadsBelow_followLink _) _ _ final location inner
    shape leads name below content file

/-- A path to a file leads to it for another purpose, unless that one stops at links. -/
theorem resolve_file {files : FileSystem} {purpose other : Purpose} {path : Path}
    {location : List FileName} {content : ByteArray}
    (found : files.resolve purpose path = .ok (.node location (.leaf (.file content))))
    (stops : other = .inspect → purpose = .inspect) :
    files.resolve other path = .ok (.node location (.leaf (.file content))) := by
  obtain ⟨notEmpty, free, short, leads⟩ := resolve_eq_ok.1 found
  refine resolve_eq_ok.2 ⟨notEmpty, free, short, ?_⟩
  exact Directory.findsFiles_descend stops (Directory.opensFolders_followLink _)
    (Directory.findsFiles_followLink stops _) _ _ location content leads

end FileSystem

namespace Directory

/-- The locations of the files that a walk comes upon, from the folder it starts in. -/
def included (excludes : Path → Bool) (base : Path) : Directory → List (List FileName)
  | .nil => []
  | .leaf name (.file _) rest => [name] :: rest.included excludes base
  | .leaf _ (.link _) rest => rest.included excludes base
  | .folder name inner rest =>
    (if excludes (base.join name.text) then []
      else (inner.included excludes (base.join name.text)).map (name :: ·)) ++
      rest.included excludes base

theorem included_sublist_files (excludes : Path → Bool) (base : Path) (d : Directory) :
    List.Sublist (d.included excludes base) d.files := by
  induction d generalizing base with
  | nil => exact .slnil
  | leaf name entry rest ih =>
    cases entry with
    | file content => exact (ih base).cons_cons [name]
    | link target => exact ih base
  | folder name inner rest ihInner ih =>
    refine List.Sublist.append ?_ (ih base)
    split
    · exact List.nil_sublist _
    · exact (ihInner _).map _

theorem ne_nil_of_mem_included {excludes : Path → Bool} {base : Path} {d : Directory}
    {way : List FileName} (member : way ∈ d.included excludes base) : way ≠ [] := by
  obtain ⟨name, below, rfl, -⟩ :=
    head?_of_mem_files ((d.included_sublist_files excludes base).subset member)
  exact List.cons_ne_nil _ _

/-- Unless the walk fails, its visits are the included files with their paths. -/
theorem filterMap_file?_visits {excludes : Path → Bool} {base : Path} {d : Directory}
    (complete : ∀ visit ∈ d.visits excludes base, visit.error? = none) :
    (d.visits excludes base).filterMap Visit.file? = (d.included excludes base).map base.below := by
  induction d generalizing base with
  | nil => rfl
  | leaf name entry rest ih =>
    cases entry with
    | file content =>
      have others := ih fun visit member => complete visit (List.mem_cons_of_mem _ member)
      simp only [visits, included, List.map_cons, ← others]
      rfl
    | link target => exact ih complete
  | folder name inner rest ihInner ih =>
    have others := ih fun visit member => complete visit (List.mem_append_right _ member)
    have inside := fun visit member => complete visit (List.mem_append_left _ member)
    rw [visits, included, List.filterMap_append, List.map_append, others]
    congr 1
    split
    · rfl
    · next walks =>
      rw [if_neg walks] at inside
      split
      · next long =>
        rw [if_pos long] at inside
        exact absurd (inside _ List.mem_cons_self) (by simp [Visit.error?])
      · next short =>
        rw [if_neg short] at inside
        rw [ihInner inside, List.map_map]
        rfl

end Directory

namespace Visit

theorem untilFailure_eq_self {visits : List Visit}
    (complete : (untilFailure visits).findSome? error? = none) :
    untilFailure visits = visits ∧ ∀ visit ∈ visits, visit.error? = none := by
  induction visits with
  | nil => exact ⟨rfl, by simp⟩
  | cons visit visits ih =>
    cases visit with
    | failed error => simp [untilFailure, error?] at complete
    | file path =>
      obtain ⟨same, none⟩ := ih (by simpa [untilFailure, error?] using complete)
      exact ⟨by simp [untilFailure, same], by simpa [error?] using none⟩
    | excluded path =>
      obtain ⟨same, none⟩ := ih (by simpa [untilFailure, error?] using complete)
      exact ⟨by simp [untilFailure, same], by simpa [error?] using none⟩

end Visit

namespace FileSystem

section

variable {files : FileSystem} {root : Path} {location : List FileName} {inner : Directory}

/-- A root that is a folder and one that is a link to a folder are walked alike. -/
theorem walk_of_folder (leads : files.resolve .use root = .ok (.node location (.folder inner)))
    (exclusions : Exclusions) : files.walk exclusions root =
      Visit.untilFailure (inner.visits (exclusions.excludes root) root) := by
  rcases files.resolve_inspect_cases root with same | ⟨_, _, looks⟩
  · simp only [walk, same.trans leads]
  · simp only [walk, looks, leads]

theorem sourceFiles_of_file {content : ByteArray}
    (looks : files.resolve .inspect root = .ok (.node location (.leaf (.file content))))
    (exclusions : Exclusions) : files.sourceFiles exclusions root = .ok [root] := by
  have walks : files.walk exclusions root = [.file root] := by simp only [walk, looks]
  rw [sourceFiles, walks]
  rfl

theorem sourceFiles_of_folder
    (leads : files.resolve .use root = .ok (.node location (.folder inner)))
    {exclusions : Exclusions} {paths : List Path}
    (found : files.sourceFiles exclusions root = .ok paths) :
    paths = (inner.included (exclusions.excludes root) root).map root.below := by
  rw [sourceFiles, walk_of_folder leads] at found
  split at found
  · cases found
  · next complete =>
    obtain ⟨uncut, none⟩ := Visit.untilFailure_eq_self complete
    rw [← Except.ok.inj found, uncut, Directory.filterMap_file?_visits none]

end

/-- The root of a walk that does not fail: a file, a folder or a link to one, or a link to a
file. -/
theorem root_cases {files : FileSystem} {exclusions : Exclusions} {root : Path}
    {paths : List Path} (found : files.sourceFiles exclusions root = .ok paths) :
    (∃ location content,
      files.resolve .inspect root = .ok (.node location (.leaf (.file content)))) ∨
    (∃ location inner, files.resolve .use root = .ok (.node location (.folder inner))) ∨
    (∃ location target other entry,
      files.resolve .inspect root = .ok (.node location (.leaf (.link target))) ∧
      files.resolve .use root = .ok (.node other (.leaf entry)) ∧ paths = []) := by
  rcases files.resolve_inspect_cases root with same | ⟨location, target, looks⟩
  · rcases leads : files.resolve .use root with
      error | (⟨location, ((content | target) | inner)⟩ | location)
    case ok.node.leaf.file => exact .inl ⟨location, content, same.trans leads⟩
    case ok.node.folder => exact .inr (.inl ⟨location, inner, rfl⟩)
    case ok.node.leaf.link =>
      have none : paths = [] := by simpa [sourceFiles, walk, same, leads, eq_comm] using found
      exact .inr (.inr ⟨location, target, location, _, same.trans leads, rfl, none⟩)
    all_goals simp [sourceFiles, walk, same, leads, Visit.error?] at found
  · rcases leads : files.resolve .use root with error | (⟨other, (entry | inner)⟩ | location)
    case ok.node.folder => exact .inr (.inl ⟨other, inner, rfl⟩)
    case ok.node.leaf =>
      have none : paths = [] := by simpa [sourceFiles, walk, looks, leads, eq_comm] using found
      exact .inr (.inr ⟨location, target, other, entry, looks, rfl, none⟩)
    all_goals simp [sourceFiles, walk, looks, leads, Visit.error?] at found

/-- What the file at a location says; nothing if there is none. -/
def contentAt (files : FileSystem) (location : List FileName) : ByteArray :=
  match files.top.nodeAt location with
  | some (.leaf (.file content)) => content
  | _ => .empty

/-- A file below a folder, by the path from the folder. -/
def sourceBelow (files : FileSystem) (root : Path) (location below : List FileName) : Source :=
  ⟨root.below below, location ++ below, files.contentAt (location ++ below)⟩

theorem holds_sourceBelow {files : FileSystem} {purpose : Purpose} {root : Path}
    {location : List FileName} {inner : Directory}
    (leads : files.resolve purpose root = .ok (.node location (.folder inner)))
    {below : List FileName} (member : below ∈ inner.files) :
    files.Holds (files.sourceBelow root location below) := by
  have folder := nodeAt_of_resolve leads
  obtain ⟨content, inside⟩ := (files.ordered.inner_of_nodeAt folder).nodeAt_of_mem_files member
  obtain ⟨name, deeper, rfl, -⟩ := Directory.head?_of_mem_files member
  have file : files.top.nodeAt (location ++ name :: deeper) = some (.leaf (.file content)) := by
    rw [Directory.nodeAt_append folder, inside]
  have content_eq : files.contentAt (location ++ name :: deeper) = content := by
    rw [contentAt, file]
  simp only [Holds, sourceBelow, content_eq]
  exact ⟨file, fun short => resolve_below leads file short⟩

/-- The files that a walk from `root` comes upon, in walking order, were a failure not its end. -/
def sources (files : FileSystem) (exclusions : Exclusions) (root : Path) : List Source :=
  match files.resolve .inspect root, files.resolve .use root with
  | .ok (.node location (.leaf (.file content))), _ => [⟨root, location, content⟩]
  | _, .ok (.node location (.folder inner)) =>
    (inner.included (exclusions.excludes root) root).map (files.sourceBelow root location)
  | _, _ => []

section

variable {files : FileSystem} {exclusions : Exclusions} {root : Path}

theorem sources_of_file {location : List FileName} {content : ByteArray}
    (looks : files.resolve .inspect root = .ok (.node location (.leaf (.file content)))) :
    files.sources exclusions root = [⟨root, location, content⟩] := by
  simp only [sources, looks]

theorem sources_of_folder {location : List FileName} {inner : Directory}
    (leads : files.resolve .use root = .ok (.node location (.folder inner))) :
    files.sources exclusions root =
      (inner.included (exclusions.excludes root) root).map (files.sourceBelow root location) := by
  rcases files.resolve_inspect_cases root with same | ⟨_, _, looks⟩
  · simp only [sources, same, leads]
  · simp only [sources, looks, leads]

/-- The sources of a walk that does not fail are the files that it collects. -/
theorem map_path_sources {paths : List Path} (found : files.sourceFiles exclusions root = .ok paths) :
    (files.sources exclusions root).map (·.path) = paths := by
  rcases root_cases found with ⟨location, content, looks⟩ | ⟨location, inner, leads⟩ |
    ⟨location, target, other, entry, looks, leads, rfl⟩
  · rw [sources_of_file looks]
    exact Except.ok.inj ((sourceFiles_of_file looks exclusions).symm.trans found)
  · rw [sources_of_folder leads, sourceFiles_of_folder leads found]
    simp [sourceBelow]
  · simp [sources, looks, leads]

theorem holds_of_mem_sources {source : Source} (member : source ∈ files.sources exclusions root) :
    files.Holds source := by
  unfold sources at member
  split at member
  · next looks =>
    rw [List.mem_singleton.1 member]
    exact ⟨nodeAt_of_resolve looks, fun _ _ => resolve_file looks fun _ => rfl⟩
  · next leads _ =>
    obtain ⟨below, inside, rfl⟩ := List.mem_map.1 member
    exact holds_sourceBelow leads ((Directory.included_sublist_files _ root _).subset inside)
  · cases member

/-- The sources stand at different places. -/
theorem nodup_sources (files : FileSystem) (exclusions : Exclusions) (root : Path) :
    ((files.sources exclusions root).map (·.location)).Nodup := by
  unfold sources
  split
  · simp
  · next location inner leads _ =>
    have ordered := files.ordered.inner_of_nodeAt (nodeAt_of_resolve leads)
    have included := inner.included_sublist_files (exclusions.excludes root) root
    rw [List.map_map]
    -- Different ways down from one folder end at different places.
    apply List.pairwise_map.2
    refine (ordered.nodup_files.sublist included).imp fun differ same => differ ?_
    exact List.append_cancel_left same
  · simp

/-- The sources have different paths. -/
theorem nodup_path_sources (files : FileSystem) (exclusions : Exclusions) (root : Path) :
    ((files.sources exclusions root).map (·.path)).Nodup := by
  unfold sources
  split
  · simp
  · next location inner leads _ =>
    have ordered := files.ordered.inner_of_nodeAt (nodeAt_of_resolve leads)
    have included := inner.included_sublist_files (exclusions.excludes root) root
    rw [List.map_map]
    apply List.pairwise_map.2
    refine (ordered.nodup_files.sublist included).imp_of_mem fun inside insideToo differ same => differ ?_
    exact Path.eq_of_below_eq (resolve_eq_ok.1 leads).1 (Directory.ne_nil_of_mem_included inside)
      (Directory.ne_nil_of_mem_included insideToo) same
  · simp

end

/-- The collected paths are those of files that stand at different places. -/
theorem exists_sources {files : FileSystem} {exclusions : Exclusions} {root : Path}
    {paths : List Path} (found : files.sourceFiles exclusions root = .ok paths) :
    ∃ sources : List Source, sources.map (·.path) = paths ∧ (sources.map (·.location)).Nodup ∧
      ∀ source ∈ sources, files.Holds source :=
  ⟨files.sources exclusions root, map_path_sources found, files.nodup_sources exclusions root,
    fun _ => holds_of_mem_sources⟩

end FileSystem

/-! ## Changed contents -/

namespace Directory

theorem visits_mapFiles (change : List FileName → ByteArray → ByteArray) (excludes : Path → Bool)
    (base : Path) (d : Directory) :
    (d.mapFiles change).visits excludes base = d.visits excludes base := by
  induction d generalizing change base with
  | nil => rfl
  | leaf name entry rest ih => cases entry <;> simp only [mapFiles, visits, ih]
  | folder name inner rest ihInner ih => simp only [mapFiles, visits, ihInner, ih]

theorem included_mapFiles (change : List FileName → ByteArray → ByteArray) (excludes : Path → Bool)
    (base : Path) (d : Directory) :
    (d.mapFiles change).included excludes base = d.included excludes base := by
  induction d generalizing change base with
  | nil => rfl
  | leaf name entry rest ih => cases entry <;> simp only [mapFiles, included, ih]
  | folder name inner rest ihInner ih => simp only [mapFiles, included, ihInner, ih]

end Directory

/-- The source with its content changed. -/
def Source.mapContent (change : List FileName → ByteArray → ByteArray) (source : Source) : Source :=
  { source with content := change source.location source.content }

namespace FileSystem

variable (change : List FileName → ByteArray → ByteArray) (files : FileSystem)
  (exclusions : Exclusions) (root : Path)

theorem walk_mapFiles : (files.mapFiles change).walk exclusions root = files.walk exclusions root := by
  simp only [walk, resolve_mapFiles]
  rcases files.resolve .inspect root with
    error | (⟨location, ((content | target) | inner)⟩ | location)
  case ok.node.leaf.link =>
    rcases files.resolve .use root with
      error | (⟨location, ((content | target) | inner)⟩ | location)
    all_goals simp only [Except.map, Place.mapFiles, Node.mapFiles, Directory.visits_mapFiles]
  all_goals simp only [Except.map, Place.mapFiles, Node.mapFiles, Directory.visits_mapFiles]

theorem sourceFiles_mapFiles : (files.mapFiles change).sourceFiles exclusions root =
    files.sourceFiles exclusions root := by
  rw [sourceFiles, sourceFiles, walk_mapFiles]

theorem sourceBelow_mapFiles {location below : List FileName} {content : ByteArray}
    (found : files.top.nodeAt (location ++ below) = some (.leaf (.file content))) :
    (files.mapFiles change).sourceBelow root location below =
      (files.sourceBelow root location below).mapContent change := by
  simp only [sourceBelow, Source.mapContent, contentAt, nodeAt_mapFiles, found, Option.map_some,
    Node.mapFiles]

/-- The same files are found, with changed contents. -/
theorem sources_mapFiles : (files.mapFiles change).sources exclusions root =
    (files.sources exclusions root).map (Source.mapContent change) := by
  have below {location : List FileName} {inner : Directory}
      (leads : files.resolve .use root = .ok (.node location (.folder inner))) :
      (files.mapFiles change).sources exclusions root =
        (files.sources exclusions root).map (Source.mapContent change) := by
    have changed : (files.mapFiles change).resolve .use root = _ :=
      (resolve_mapFiles change files .use root).trans (congrArg _ leads)
    rw [sources_of_folder leads, sources_of_folder changed, Directory.included_mapFiles, List.map_map]
    apply List.map_congr_left
    intro below inside
    have held := holds_sourceBelow leads ((Directory.included_sublist_files _ root _).subset inside)
    exact files.sourceBelow_mapFiles change root held.1
  rcases files.resolve_inspect_cases root with same | ⟨origin, other, looks⟩
  · rcases leads : files.resolve .use root with
      error | (⟨location, ((content | target) | inner)⟩ | location)
    case ok.node.folder => exact below leads
    all_goals
      simp [sources, resolve_mapFiles, same, leads, Except.map, Place.mapFiles, Node.mapFiles,
        Source.mapContent]
  · rcases leads : files.resolve .use root with
      error | (⟨location, ((content | target) | inner)⟩ | location)
    case ok.node.folder => exact below leads
    all_goals
      simp [sources, resolve_mapFiles, looks, leads, Except.map, Place.mapFiles, Node.mapFiles]

end FileSystem

end CopyrightHeader

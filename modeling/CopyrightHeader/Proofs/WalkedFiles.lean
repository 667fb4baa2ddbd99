import CopyrightHeader.Proofs.NameOrder
import CopyrightHeader.Proofs.RunOutcome

/-! Which files a walk finds, and in which order.

To leave out folders on the way comes to the same as to find all files first and then to drop those
that stand in a folder that is left out. What is left is in the order of the names on the way from
the root. A walk fails just where it has to open a folder whose path is too long.
-/

set_option autoImplicit false

namespace CopyrightHeader

/-! ## Ways that are not left out -/

/-- None of the folders on the way down from `base` is left out, the last one included. -/
def Unpruned (excludes : Path → Bool) (base : Path) (way : List FileName) : Prop :=
  ∀ front, front <+: way → front ≠ [] → excludes (base.below front) = false

namespace Unpruned

variable {excludes : Path → Bool} {base : Path}

theorem nil (excludes : Path → Bool) (base : Path) : Unpruned excludes base [] :=
  fun _ front down => absurd (List.prefix_nil.1 front) down

theorem cons_iff {name : FileName} {way : List FileName} :
    Unpruned excludes base (name :: way) ↔
      excludes (base.join name.text) = false ∧ Unpruned excludes (base.join name.text) way := by
  constructor
  · intro unpruned
    refine ⟨unpruned [name] ⟨way, rfl⟩ (List.cons_ne_nil _ _), fun front inside _ => ?_⟩
    exact unpruned (name :: front) (List.cons_prefix_cons.2 ⟨rfl, inside⟩) (List.cons_ne_nil _ _)
  · rintro ⟨here, deeper⟩ front inside down
    obtain ⟨first, rest, rfl⟩ := List.exists_cons_of_ne_nil down
    obtain ⟨rfl, onWay⟩ := List.cons_prefix_cons.1 inside
    by_cases atOnce : rest = []
    · rw [atOnce]
      exact here
    · exact deeper rest onWay atOnce

end Unpruned

namespace Exclusions

variable {root : Path} (notEmpty : root.text ≠ "") (exclusions : Exclusions)

include notEmpty

theorem excludes_below (way : List FileName) :
    exclusions.excludes root (root.below way) =
      (!way.isEmpty && exclusions.subtrees.any fun subtree =>
        subtree.components.isPrefixOf (way.map fun name => .name name.text)) := by
  rw [excludes, Path.relativeTo_below notEmpty]
  simp

/-- A folder in one that is left out is left out. -/
theorem excludes_inside {front way : List FileName} (inside : front <+: way)
    (excluded : exclusions.excludes root (root.below front)) :
    exclusions.excludes root (root.below way) := by
  rw [excludes_below notEmpty] at excluded ⊢
  simp only [Bool.and_eq_true, Bool.not_eq_true', List.isEmpty_eq_false_iff, List.any_eq_true,
    List.isPrefixOf_iff_prefix] at excluded ⊢
  obtain ⟨down, subtree, member, covers⟩ := excluded
  refine ⟨fun none => down ?_, subtree, member, covers.trans (inside.map _)⟩
  rw [none] at inside
  exact List.prefix_nil.1 inside

theorem unpruned_iff (way : List FileName) : Unpruned (exclusions.excludes root) root way ↔
    way = [] ∨ exclusions.excludes root (root.below way) = false := by
  constructor
  · intro unpruned
    by_cases atRoot : way = []
    · exact .inl atRoot
    · exact .inr (unpruned way List.prefix_rfl atRoot)
  · rintro (rfl | included) front inside down
    · exact absurd (List.prefix_nil.1 inside) down
    -- Were a folder on the way left out, so would be the last one.
    · cases excluded : exclusions.excludes root (root.below front) with
      | false => rfl
      | true =>
        rw [excludes_inside notEmpty exclusions inside excluded] at included
        cases included

end Exclusions

/-! ## Files -/

namespace Directory

variable {excludes : Path → Bool} {base : Path} {d : Directory} {way : List FileName}

/-- A walk that leaves out folders comes upon those of all files that are in none of them. -/
theorem mem_included_iff : way ∈ d.included excludes base ↔
    way ∈ d.files ∧ Unpruned excludes base way.dropLast := by
  induction d generalizing base way with
  | nil => simp [included, files]
  | leaf name entry rest ih =>
    cases entry with
    | link target => exact ih
    | file content =>
      have alone : way = [name] → Unpruned excludes base way.dropLast := by
        rintro rfl
        exact .nil excludes base
      simp only [included, files, List.mem_cons, ih]
      constructor
      · rintro (here | ⟨inRest, unpruned⟩)
        · exact ⟨.inl here, alone here⟩
        · exact ⟨.inr inRest, unpruned⟩
      · rintro ⟨here | inRest, unpruned⟩
        · exact .inl here
        · exact .inr ⟨inRest, unpruned⟩
  | folder name inner rest ihInner ih =>
    -- A file inside the folder has the folder on its way.
    have inside {below : List FileName} (member : below ∈ inner.files) :
        Unpruned excludes base (name :: below).dropLast ↔
          excludes (base.join name.text) = false ∧
            Unpruned excludes (base.join name.text) below.dropLast := by
      obtain ⟨next, deeper, rfl, -⟩ := head?_of_mem_files member
      exact Unpruned.cons_iff
    rw [included, files, List.mem_append, List.mem_append, ih]
    -- The folder is passed over as a whole, or walked with itself as the base.
    constructor
    · rintro (inFolder | ⟨inRest, unpruned⟩)
      · split at inFolder
        · cases inFolder
        · next walks =>
          obtain ⟨below, member, rfl⟩ := List.mem_map.1 inFolder
          obtain ⟨file, unpruned⟩ := ihInner.1 member
          exact ⟨.inl (List.mem_map_of_mem file), (inside file).2 ⟨by simpa using walks, unpruned⟩⟩
      · exact ⟨.inr inRest, unpruned⟩
    · rintro ⟨inFolder | inRest, unpruned⟩
      · obtain ⟨below, file, rfl⟩ := List.mem_map.1 inFolder
        obtain ⟨walks, deeper⟩ := (inside file).1 unpruned
        refine .inl ?_
        rw [if_neg (by simp [walks])]
        exact List.mem_map_of_mem (ihInner.2 ⟨file, deeper⟩)
      · exact .inr ⟨inRest, unpruned⟩

/-! ## Folders that cannot be opened -/

/-- A folder that a walk has to open but cannot, its path being too long. -/
structure Overlong (excludes : Path → Bool) (base : Path) (d : Directory) (way : List FileName) :
    Prop where
  isFolder : ∃ inner, d.nodeAt way = some (.folder inner)
  down : way ≠ []
  unpruned : Unpruned excludes base way
  isTooLong : (base.below way).isTooLong

theorem Overlong.of_nodeAt {other : Directory} (overlong : Overlong excludes base d way)
    (found : ∀ inner, d.nodeAt way = some (.folder inner) →
      other.nodeAt way = some (.folder inner)) : Overlong excludes base other way where
  isFolder := overlong.isFolder.imp found
  down := overlong.down
  unpruned := overlong.unpruned
  isTooLong := overlong.isTooLong

section

variable {name : FileName} {inner rest : Directory}

/-- Inside a folder that is not left out the same folders are overlong. -/
theorem overlong_cons_iff {next : FileName} {below : List FileName} :
    Overlong excludes base (folder name inner rest) (name :: next :: below) ↔
      excludes (base.join name.text) = false ∧
        Overlong excludes (base.join name.text) inner (next :: below) := by
  constructor
  · rintro ⟨isFolder, -, unpruned, long⟩
    obtain ⟨included, deeper⟩ := Unpruned.cons_iff.1 unpruned
    rw [nodeAt_folder_self] at isFolder
    exact ⟨included, isFolder, List.cons_ne_nil _ _, deeper, long⟩
  · rintro ⟨included, isFolder, -, deeper, long⟩
    rw [← nodeAt_folder_self inner rest] at isFolder
    exact ⟨isFolder, List.cons_ne_nil _ _, Unpruned.cons_iff.2 ⟨included, deeper⟩, long⟩

theorem overlong_singleton (included : excludes (base.join name.text) = false)
    (long : (base.join name.text).isTooLong) :
    Overlong excludes base (folder name inner rest) [name] where
  isFolder := ⟨inner, by simp [find?]⟩
  down := List.cons_ne_nil _ _
  unpruned := Unpruned.cons_iff.2 ⟨included, .nil excludes _⟩
  isTooLong := long

theorem visits_of_excluded (excluded : excludes (base.join name.text) = true) :
    (folder name inner rest).visits excludes base =
      .excluded (base.join name.text) :: rest.visits excludes base := by
  rw [visits, if_pos excluded, List.singleton_append]

theorem visits_of_isTooLong (included : excludes (base.join name.text) = false)
    (long : (base.join name.text).isTooLong) :
    (folder name inner rest).visits excludes base =
      .failed ⟨base.join name.text, .nameTooLong⟩ :: rest.visits excludes base := by
  rw [visits, if_neg (by simp [included]), if_pos long, List.singleton_append]

theorem visits_of_opened (included : excludes (base.join name.text) = false)
    (short : (base.join name.text).isTooLong = false) :
    (folder name inner rest).visits excludes base =
      inner.visits excludes (base.join name.text) ++ rest.visits excludes base := by
  rw [visits, if_neg (by simp [included]), if_neg (by simp [short])]

end

/-- What a walk fails at is an overlong folder. -/
theorem exists_overlong_of_failed (ordered : d.Ordered) {error : WalkError}
    (failed : .failed error ∈ d.visits excludes base) :
    ∃ way, Overlong excludes base d way ∧ error = ⟨base.below way, .nameTooLong⟩ := by
  induction d generalizing base with
  | nil => cases failed
  | leaf name entry rest ih =>
    have inRest : .failed error ∈ rest.visits excludes base := by
      cases entry with
      | file content => simpa [visits] using failed
      | link target => exact failed
    obtain ⟨way, overlong, same⟩ := ih ordered.2 inRest
    exact ⟨way, overlong.of_nodeAt fun _ => ordered.nodeAt_leaf overlong.down, same⟩
  | folder name inner rest ihInner ih =>
    have behind (inRest : .failed error ∈ rest.visits excludes base) :
        ∃ way, Overlong excludes base (folder name inner rest) way ∧
          error = ⟨base.below way, .nameTooLong⟩ := by
      obtain ⟨way, overlong, same⟩ := ih ordered.2.2 inRest
      exact ⟨way, overlong.of_nodeAt fun _ => ordered.nodeAt_folder overlong.down, same⟩
    cases pruned : excludes (base.join name.text) with
    | true =>
      rw [visits_of_excluded pruned] at failed
      exact behind (by simpa using failed)
    | false =>
      cases long : (base.join name.text).isTooLong with
      | true =>
        rw [visits_of_isTooLong pruned long] at failed
        rcases List.mem_cons.1 failed with here | inRest
        · cases here
          exact ⟨[name], overlong_singleton pruned long, rfl⟩
        · exact behind inRest
      | false =>
        rw [visits_of_opened pruned long] at failed
        rcases List.mem_append.1 failed with inFolder | inRest
        · obtain ⟨way, overlong, same⟩ := ihInner ordered.2.1 inFolder
          obtain ⟨next, below, rfl⟩ := List.exists_cons_of_ne_nil overlong.down
          exact ⟨name :: next :: below, overlong_cons_iff.2 ⟨pruned, overlong⟩, same⟩
        · exact behind inRest

/-- A walk fails at an overlong folder or before it comes there. -/
theorem exists_failed_of_overlong (overlong : Overlong excludes base d way) :
    ∃ error, .failed error ∈ d.visits excludes base := by
  obtain ⟨first, below, rfl⟩ := List.exists_cons_of_ne_nil overlong.down
  induction d generalizing base first below with
  | nil =>
    obtain ⟨inner, isFolder⟩ := overlong.isFolder
    simp [nodeAt, find?] at isFolder
  | leaf name entry rest ih =>
    have differ : name ≠ first := by
      rintro rfl
      obtain ⟨inner, isFolder⟩ := overlong.isFolder
      cases below <;> simp [nodeAt, find?] at isFolder
    obtain ⟨error, inRest⟩ := ih first below
      (overlong.of_nodeAt fun _ => (nodeAt_leaf_of_ne differ entry rest below).symm.trans)
    cases entry with
    | file content => exact ⟨error, List.mem_cons_of_mem _ inRest⟩
    | link target => exact ⟨error, inRest⟩
  | folder name inner rest ihInner ih =>
    by_cases here : name = first
    · subst here
      have included := (Unpruned.cons_iff.1 overlong.unpruned).1
      cases long : (base.join name.text).isTooLong with
      | true =>
        rw [visits_of_isTooLong included long]
        exact ⟨_, List.mem_cons_self⟩
      | false =>
        -- The folder itself can be opened, so the overlong one is inside.
        rw [visits_of_opened included long]
        cases below with
        | nil => cases long.symm.trans overlong.isTooLong
        | cons next deeper =>
          obtain ⟨error, inFolder⟩ := ihInner next deeper (overlong_cons_iff.1 overlong).2
          exact ⟨error, List.mem_append_left _ inFolder⟩
    · obtain ⟨error, inRest⟩ := ih first below
        (overlong.of_nodeAt fun _ => (nodeAt_folder_of_ne here inner rest below).symm.trans)
      exact ⟨error, List.mem_append_right _ inRest⟩

end Directory

namespace Visit

theorem findSome?_untilFailure (visits : List Visit) :
    (untilFailure visits).findSome? error? = visits.findSome? error? := by
  induction visits with
  | nil => rfl
  | cons visit visits ih =>
    cases visit with
    | failed error => rfl
    | file path => exact ih
    | excluded path => exact ih

theorem error?_eq_some {visit : Visit} {error : WalkError} :
    visit.error? = some error ↔ visit = .failed error := by
  cases visit <;> simp [error?]

end Visit

/-! ## The walk -/

namespace FileSystem

variable {files : FileSystem} {root : Path} {location : List FileName} {inner : Directory}

theorem sourceFiles_eq_error (leads : files.resolve .use root = .ok (.node location (.folder inner)))
    {exclusions : Exclusions} {error : WalkError} :
    files.sourceFiles exclusions root = .error error ↔
      (inner.visits (exclusions.excludes root) root).findSome? Visit.error? = some error := by
  rw [sourceFiles, walk_of_folder leads, Visit.findSome?_untilFailure]
  cases (inner.visits (exclusions.excludes root) root).findSome? Visit.error? with
  | none => simp
  | some other => simp

theorem exists_overlong_of_error
    (leads : files.resolve .use root = .ok (.node location (.folder inner)))
    {exclusions : Exclusions} {error : WalkError}
    (failed : files.sourceFiles exclusions root = .error error) :
    ∃ way, inner.Overlong (exclusions.excludes root) root way ∧
      error = ⟨root.below way, .nameTooLong⟩ := by
  obtain ⟨visit, member, same⟩ :=
    List.exists_of_findSome?_eq_some ((sourceFiles_eq_error leads).1 failed)
  rw [Visit.error?_eq_some.1 same] at member
  exact Directory.exists_overlong_of_failed (files.ordered.inner_of_nodeAt (nodeAt_of_resolve leads))
    member

theorem exists_error_of_overlong
    (leads : files.resolve .use root = .ok (.node location (.folder inner)))
    {exclusions : Exclusions} {way : List FileName}
    (overlong : inner.Overlong (exclusions.excludes root) root way) :
    ∃ error, files.sourceFiles exclusions root = .error error := by
  obtain ⟨failure, member⟩ := Directory.exists_failed_of_overlong overlong
  obtain ⟨error, first⟩ := Option.isSome_iff_exists.1
    (List.findSome?_isSome_iff.2 ⟨_, member, rfl⟩ :
      ((inner.visits (exclusions.excludes root) root).findSome? Visit.error?).isSome)
  exact ⟨error, (sourceFiles_eq_error leads).2 first⟩

/-- A walk from a folder either fails, and then at a folder that it has to open and whose path is
too long, or it finds just the files that stand in no folder that is left out, each of them once
and in the order of the names on the way to them. A walk from a file finds that file. -/
theorem walk_finds_unpruned_in_order (files : FileSystem) (exclusions : Exclusions) (root : Path) :
    (∀ location inner, files.resolve .use root = .ok (.node location (.folder inner)) →
      (∀ error, files.sourceFiles exclusions root = .error error →
        ∃ way, inner.Overlong (exclusions.excludes root) root way ∧
          error = ⟨root.below way, .nameTooLong⟩) ∧
      (∀ way, inner.Overlong (exclusions.excludes root) root way →
        ∃ error, files.sourceFiles exclusions root = .error error) ∧
      (∀ paths, files.sourceFiles exclusions root = .ok paths →
        paths.Nodup ∧ ∃ ways : List (List FileName), paths = ways.map root.below ∧
          (∀ way, way ∈ ways ↔ (∃ content, inner.nodeAt way = some (.leaf (.file content))) ∧
            Unpruned (exclusions.excludes root) root way.dropLast) ∧
          (∀ way ∈ ways, (root.below way).relativeTo root =
            some (way.map fun name => .name name.text)) ∧
          (ways.map fun way => way.map FileName.bytes).Pairwise (· < ·)) ∧
      ∀ way, Unpruned (exclusions.excludes root) root way ↔
        way = [] ∨ exclusions.excludes root (root.below way) = false) ∧
    ∀ location content,
      files.resolve .inspect root = .ok (.node location (.leaf (.file content))) →
        files.sourceFiles exclusions root = .ok [root] := by
  refine ⟨fun location inner leads => ⟨fun error failed => exists_overlong_of_error leads failed,
    fun way overlong => exists_error_of_overlong leads overlong, fun paths found => ?_, ?_⟩,
    fun location content looks => sourceFiles_of_file looks exclusions⟩
  · have ordered := files.ordered.inner_of_nodeAt (nodeAt_of_resolve leads)
    have notEmpty := (resolve_eq_ok.1 leads).1
    have once : paths.Nodup := by
      rw [← map_path_sources found]
      exact files.nodup_path_sources exclusions root
    refine ⟨once, inner.included (exclusions.excludes root) root, sourceFiles_of_folder leads found,
      fun way => ?_, fun way _ => Path.relativeTo_below notEmpty way, ?_⟩
    · rw [Directory.mem_included_iff, ordered.mem_files_iff]
    · have increasing := ordered.increasing_files.sublist
        (inner.included_sublist_files (exclusions.excludes root) root)
      exact List.pairwise_map.2 (increasing.imp FileName.map_bytes_lt)
  · exact Exclusions.unpruned_iff (resolve_eq_ok.1 leads).1 exclusions

/-- A folder beside a file that has its name and more, a link and a folder that is left out. -/
def namesakes : FileSystem where
  top := .folder ⟨"parse", by decide⟩ (.leaf ⟨"node.c", by decide⟩ (.file "x\n".toUTF8) .nil)
    (.leaf ⟨"parse.c", by decide⟩ (.file "y\n".toUTF8)
      (.folder ⟨"third_party", by decide⟩
        (.leaf ⟨"zlib.c", by decide⟩ (.file "z\n".toUTF8) .nil)
        (.leaf ⟨"yacc.c", by decide⟩ (.link "parse.c") .nil)))
  workingDirectory := []
  ordered := by decide
  startsInFolder := ⟨_, rfl⟩

theorem walk_finds_unpruned_namesakes :
    namesakes.sourceFiles .default ⟨"."⟩ = .ok [⟨"./parse/node.c"⟩, ⟨"./parse.c"⟩] ∧
      [Path.mk "./parse/node.c", ⟨"./parse.c"⟩].Nodup ∧
      ∃ ways : List (List FileName), [⟨"./parse/node.c"⟩, ⟨"./parse.c"⟩] = ways.map (Path.mk ".").below ∧
        (∀ way, way ∈ ways ↔
          (∃ content, namesakes.top.nodeAt way = some (.leaf (.file content))) ∧
            (way.dropLast = [] ∨
              Exclusions.default.excludes ⟨"."⟩ ((Path.mk ".").below way.dropLast) = false)) ∧
        (ways.map fun way => way.map FileName.bytes).Pairwise (· < ·) := by
  have leads : namesakes.resolve .use ⟨"."⟩ = .ok (.node [] (.folder namesakes.top)) := rfl
  have found : namesakes.sourceFiles .default ⟨"."⟩ = .ok [⟨"./parse/node.c"⟩, ⟨"./parse.c"⟩] := rfl
  obtain ⟨-, -, lists, parents⟩ :=
    (walk_finds_unpruned_in_order namesakes .default ⟨"."⟩).1 _ _ leads
  obtain ⟨once, ways, same, exactly, -, increasing⟩ := lists _ found
  simp only [parents] at exactly
  exact ⟨found, once, ways, same, exactly, increasing⟩

open Processor in
theorem exists_error_farRoot {separators : Nat} (short : separators + 1 < Path.limit)
    {name : FileName} (exceeds : Path.limit < separators + 2 + name.text.utf8ByteSize)
    (atTop : files.workingDirectory = []) {rest : Directory}
    (top : files.top = .folder name inner rest) {exclusions : Exclusions}
    (included : exclusions.excludes (farRoot (separators + 1))
      ((farRoot (separators + 1)).below [name]) = false) :
    ∃ error, files.sourceFiles exclusions (farRoot (separators + 1)) = .error error := by
  have overlong : (Directory.folder name inner rest).Overlong _ _ _ :=
    Directory.overlong_singleton included (isTooLong_join_farRoot name exceeds)
  rw [← top] at overlong
  exact exists_error_of_overlong (resolve_farRoot short atTop .use) overlong

/-- A file in a folder, seen from a root that leaves no room for the name of the folder. -/
theorem walk_fails_at_long_folder :
    let files : FileSystem := ⟨.folder ⟨"sources", by decide⟩
      (.leaf ⟨"a.c", by decide⟩ (.file "x\n".toUTF8) .nil) .nil, [], by decide, ⟨_, rfl⟩⟩
    let root := Processor.farRoot 4090
    files.resolve .use root = .ok (.node [] (.folder files.top)) ∧
      files.top.nodeAt [⟨"sources", by decide⟩, ⟨"a.c", by decide⟩] =
        some (.leaf (.file "x\n".toUTF8)) ∧
      Exclusions.default.excludes root (root.below [⟨"sources", by decide⟩]) = false ∧
      ∀ paths, files.sourceFiles .default root ≠ .ok paths := by
  intro files root
  have short : 4089 + 1 < Path.limit := by decide
  have exceeds : Path.limit < 4089 + 2 + "sources".utf8ByteSize := by decide
  have included : Exclusions.default.excludes root (root.below [⟨"sources", by decide⟩]) = false := by
    rw [Exclusions.excludes_below (Processor.text_farRoot_ne_empty 4090)]
    decide
  obtain ⟨error, failed⟩ : ∃ error, files.sourceFiles .default root = .error error :=
    exists_error_farRoot short exceeds rfl rfl included
  exact ⟨Processor.resolve_farRoot short rfl .use, rfl, included,
    fun paths found => nomatch failed.symm.trans found⟩

end FileSystem

end CopyrightHeader

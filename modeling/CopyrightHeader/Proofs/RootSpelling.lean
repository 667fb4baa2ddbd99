import CopyrightHeader.Proofs.PathNames
import CopyrightHeader.Proofs.Plan
import CopyrightHeader.Proofs.WalkedFiles

/-! Roots that lead to one folder.

How a root is written shows in the paths of the walk from it and nowhere else: the same ways down are
taken, left out and updated, whichever path stands in front of them. All that can tell two roots
apart is that a path may not be longer than the limit.
-/

set_option autoImplicit false

namespace CopyrightHeader

/-! ## Ways down from either root -/

section

variable {root other : Path} (notEmpty : root.text ≠ "") (notEmptyToo : other.text ≠ "")

include notEmpty notEmptyToo

theorem Exclusions.excludes_respelled (exclusions : Exclusions) (way : List FileName) :
    exclusions.excludes root (root.below way) = exclusions.excludes other (other.below way) := by
  rw [excludes_below notEmpty, excludes_below notEmptyToo]

theorem Path.fileName_respelled {way : List FileName} (down : way ≠ []) :
    (root.below way).fileName = (other.below way).fileName := by
  rw [← List.dropLast_concat_getLast down, fileName_below notEmpty, fileName_below notEmptyToo]

end

namespace Directory

/-- The same files are included if the same folders are left out. -/
theorem included_congr {excludes excludes' : Path → Bool} {base base' : Path}
    (same : ∀ way, excludes (base.below way) = excludes' (base'.below way)) (d : Directory) :
    d.included excludes base = d.included excludes' base' := by
  induction d generalizing base base' with
  | nil => rfl
  | leaf name entry rest ih => cases entry <;> simp only [included, ih same]
  | folder name inner rest ihInner ih =>
    have here : excludes (base.join name.text) = excludes' (base'.join name.text) := same [name]
    simp only [included, here, ih same, ihInner fun way => same (name :: way)]

end Directory

namespace Visit

def path : Visit → Path
  | .file path => path
  | .excluded path => path
  | .failed error => error.path

theorem untilFailure_subset (visits : List Visit) : untilFailure visits ⊆ visits := by
  induction visits with
  | nil => exact List.Subset.refl _
  | cons visit visits ih =>
    cases visit with
    | failed error => exact List.cons_subset_cons _ (List.nil_subset _)
    | file path => exact List.cons_subset_cons _ ih
    | excluded path => exact List.cons_subset_cons _ ih

end Visit

/-- Every visit has the path of a way down from the base. -/
theorem Directory.exists_way_of_mem_visits {excludes : Path → Bool} {base : Path} {d : Directory}
    {visit : Visit} (member : visit ∈ d.visits excludes base) :
    ∃ way, visit.path = base.below way := by
  induction d generalizing base with
  | nil => cases member
  | leaf name entry rest ih =>
    cases entry with
    | link target => exact ih member
    | file content =>
      rcases List.mem_cons.1 member with rfl | member
      · exact ⟨[name], rfl⟩
      · exact ih member
  | folder name inner rest ihInner ih =>
    rw [visits] at member
    rcases List.mem_append.1 member with member | member
    · split at member
      · rw [List.mem_singleton.1 member]
        exact ⟨[name], rfl⟩
      · split at member
        · rw [List.mem_singleton.1 member]
          exact ⟨[name], rfl⟩
        · obtain ⟨way, same⟩ := ihInner member
          exact ⟨name :: way, same⟩
    · exact ih member

/-! ## Runs from either root -/

/-- The path that an error is about. -/
def RunError.path : RunError → Path
  | .walking _ error => error.path
  | .reading path _ => path
  | .header path _ => path
  | .writing path _ => path

/-- The same counts, or the same fault in the same file, seen from the one root and the other. -/
inductive SameBelow (root other : Path) :
    Except RunError Summary → Except RunError Summary → Prop where
  | ok (summary : Summary) : SameBelow root other (.ok summary) (.ok summary)
  | reading (way : List FileName) (error : OsError) :
      SameBelow root other (.error (.reading (root.below way) error))
        (.error (.reading (other.below way) error))
  | header (way : List FileName) (fault : Header.Unterminated) :
      SameBelow root other (.error (.header (root.below way) fault))
        (.error (.header (other.below way) fault))

/-- The end of a run at a path that is too long to be used. -/
def EndsTooLong (outcome : Except RunError Summary) : Prop :=
  ∃ error, outcome = .error error ∧ error.path.isTooLong

namespace Processor

variable {processor : Processor} {root other : Path} {files : FileSystem}

theorem endsTooLong_of_isTooLong {sources : List Source} {source : Source} {style : CommentStyle}
    (styled : processor.styleOf source.path = some style) (long : source.path.isTooLong)
    (summary : Summary) : EndsTooLong (processor.plan (source :: sources) summary).outcome := by
  have fails : processor.revise style source = .error (.reading source.path .nameTooLong) := by
    rw [revise, if_pos long]
  rw [plan_cons_of_error styled fails]
  exact ⟨.reading source.path .nameTooLong, rfl, long⟩

/-- Where the paths are short enough, what is made of a file has nothing to do with its path. -/
theorem revise_respelled {location way : List FileName} (style : CommentStyle)
    (short : (root.below way).isTooLong = false) (shortToo : (other.below way).isTooLong = false) :
    (∃ content, processor.revise style (files.sourceBelow root location way) = .ok content ∧
      processor.revise style (files.sourceBelow other location way) = .ok content) ∨
    ∃ error errorToo, processor.revise style (files.sourceBelow root location way) = .error error ∧
      processor.revise style (files.sourceBelow other location way) = .error errorToo ∧
      SameBelow root other (.error error) (.error errorToo) := by
  simp only [revise, FileSystem.sourceBelow, short, shortToo, Bool.false_eq_true, if_false]
  cases String.fromUTF8? (files.contentAt (location ++ way)) with
  | none => exact .inr ⟨_, _, rfl, rfl, .reading way .notText⟩
  | some text =>
    simp only
    cases Header.update style processor.notice text with
    | error fault => exact .inr ⟨_, _, rfl, rfl, .header way fault⟩
    | ok output => exact .inl ⟨_, rfl, rfl⟩

/-- The plans for the same ways down are the same, unless one of them comes to a path that is too
long. -/
theorem plan_respelled (processor : Processor) (notEmpty : root.text ≠ "") (notEmptyToo : other.text ≠ "")
    {ways : List (List FileName)} (down : ∀ way ∈ ways, way ≠ []) (files : FileSystem)
    (location : List FileName) (summary : Summary) :
    let plan := processor.plan (ways.map (files.sourceBelow root location)) summary
    let planToo := processor.plan (ways.map (files.sourceBelow other location)) summary
    EndsTooLong plan.outcome ∨ EndsTooLong planToo.outcome ∨
      plan.writes = planToo.writes ∧ SameBelow root other plan.outcome planToo.outcome := by
  induction ways generalizing summary with
  | nil => exact .inr (.inr ⟨rfl, .ok summary⟩)
  | cons way ways ih =>
    have named := Path.fileName_respelled notEmpty notEmptyToo (down way List.mem_cons_self)
    have sameStyle : processor.styleOf (files.sourceBelow other location way).path =
        processor.styleOf (files.sourceBelow root location way).path := by
      simp only [FileSystem.sourceBelow, styleOf, named]
    have sameTally : processor.tally summary (files.sourceBelow other location way).path =
        processor.tally summary (files.sourceBelow root location way).path := by
      simp only [FileSystem.sourceBelow, tally, named]
    have rest := ih (fun way member => down way (List.mem_cons_of_mem _ member))
      (processor.tally summary (files.sourceBelow root location way).path)
    simp only [List.map_cons]
    cases styled : processor.styleOf (files.sourceBelow root location way).path with
    | none =>
      rw [plan_cons_of_unstyled styled, plan_cons_of_unstyled (sameStyle.trans styled), sameTally]
      exact rest
    | some style =>
      have styledToo := sameStyle.trans styled
      cases long : (root.below way).isTooLong with
      | true => exact .inl (endsTooLong_of_isTooLong styled long summary)
      | false =>
        cases longToo : (other.below way).isTooLong with
        | true => exact .inr (.inl (endsTooLong_of_isTooLong styledToo longToo summary))
        | false =>
          rcases revise_respelled style long longToo with
            ⟨content, revised, revisedToo⟩ | ⟨error, errorToo, fails, failsToo, same⟩
          · rw [plan_cons_of_ok styled revised, plan_cons_of_ok styledToo revisedToo, sameTally]
            exact rest.imp_right (.imp_right fun alike => ⟨congrArg (_ :: ·) alike.1, alike.2⟩)
          · rw [plan_cons_of_error styled fails, plan_cons_of_error styledToo failsToo]
            exact .inr (.inr ⟨rfl, same⟩)

/-- From a folder a walk ends at a path that is too long, or the run goes as planned. -/
theorem run_cases_of_folder (processor : Processor) {location : List FileName} {inner : Directory}
    (leads : files.resolve .use root = .ok (.node location (.folder inner))) :
    EndsTooLong (processor.run root files).outcome ∨
      let plan := processor.plan ((inner.included (processor.exclusions.excludes root) root).map
        (files.sourceBelow root location)) .empty
      (processor.run root files).files = files.mapFiles plan.change ∧
        (processor.run root files).outcome = plan.outcome := by
  cases found : files.sourceFiles processor.exclusions root with
  | error error =>
    obtain ⟨way, overlong, rfl⟩ := FileSystem.exists_overlong_of_error leads found
    exact .inl ⟨_, (run_of_walk_error found).2, overlong.isTooLong⟩
  | ok paths =>
    have planned := run_eq_plan found
    rw [FileSystem.sources_of_folder leads] at planned
    exact .inr planned

/-- What a walk from a folder comes upon, it comes upon by the ways down. -/
theorem finds_below {location : List FileName} {inner : Directory}
    (leads : files.resolve .use root = .ok (.node location (.folder inner)))
    (exclusions : Exclusions) :
    (∀ visit ∈ files.walk exclusions root, ∃ way, visit.path = root.below way) ∧
    (∀ paths, files.sourceFiles exclusions root = .ok paths →
      paths = (inner.included (exclusions.excludes root) root).map root.below) ∧
    ∀ error, files.sourceFiles exclusions root = .error error → error.path.isTooLong := by
  refine ⟨fun visit member => ?_, fun paths found => FileSystem.sourceFiles_of_folder leads found,
    fun error failed => ?_⟩
  · rw [FileSystem.walk_of_folder leads] at member
    exact Directory.exists_way_of_mem_visits (Visit.untilFailure_subset _ member)
  · obtain ⟨way, overlong, rfl⟩ := FileSystem.exists_overlong_of_error leads failed
    exact overlong.isTooLong

/-- However the path to a folder is written, the same is found and done below it, unless one of the
runs ends at a path that is too long. -/
theorem run_respelled {location : List FileName} {inner : Directory}
    (leads : files.resolve .use root = .ok (.node location (.folder inner)))
    (leadsToo : files.resolve .use other = .ok (.node location (.folder inner)))
    (processor : Processor) :
    let run := processor.run root files
    let runToo := processor.run other files
    (∀ way,
      (root.below way).relativeTo root = some (way.map fun name => .name name.text) ∧
      (other.below way).relativeTo other = some (way.map fun name => .name name.text) ∧
      processor.exclusions.excludes root (root.below way) =
        processor.exclusions.excludes other (other.below way)) ∧
    (∃ ways : List (List FileName), ∀ start, start = root ∨ start = other →
      (∀ visit ∈ files.walk processor.exclusions start, ∃ way, visit.path = start.below way) ∧
      (∀ paths, files.sourceFiles processor.exclusions start = .ok paths →
        paths = ways.map start.below) ∧
      ∀ error, files.sourceFiles processor.exclusions start = .error error → error.path.isTooLong) ∧
    (EndsTooLong run.outcome ∨ EndsTooLong runToo.outcome ∨
      run.files = runToo.files ∧ SameBelow root other run.outcome runToo.outcome) := by
  have notEmpty := (FileSystem.resolve_eq_ok.1 leads).1
  have notEmptyToo := (FileSystem.resolve_eq_ok.1 leadsToo).1
  have excludes := processor.exclusions.excludes_respelled notEmpty notEmptyToo
  have included : inner.included (processor.exclusions.excludes other) other =
      inner.included (processor.exclusions.excludes root) root :=
    (Directory.included_congr excludes inner).symm
  intro run runToo
  refine ⟨fun way => ⟨Path.relativeTo_below notEmpty way, Path.relativeTo_below notEmptyToo way,
    excludes way⟩, ⟨inner.included (processor.exclusions.excludes root) root, ?_⟩, ?_⟩
  · rintro start (rfl | rfl)
    · exact finds_below leads processor.exclusions
    · rw [← included]
      exact finds_below leadsToo processor.exclusions
  · rcases processor.run_cases_of_folder leads with long | ⟨leaves, outcome⟩
    · exact .inl long
    rcases processor.run_cases_of_folder leadsToo with long | ⟨leavesToo, outcomeToo⟩
    · exact .inr (.inl long)
    have down : ∀ way ∈ inner.included (processor.exclusions.excludes root) root, way ≠ [] :=
      fun _ => Directory.ne_nil_of_mem_included
    rw [included] at leavesToo outcomeToo
    simp only [run, runToo, leaves, leavesToo, outcome, outcomeToo]
    refine (processor.plan_respelled notEmpty notEmptyToo down files location .empty).imp_right
      (.imp_right fun ⟨writes, same⟩ => ⟨?_, same⟩)
    rw [Plan.change_eq_of_writes writes]

def releaseFolder : Directory :=
  .folder ⟨".git", by decide⟩ (.leaf ⟨"hook.py", by decide⟩ (.file "z\n".toUTF8) .nil)
    (.leaf ⟨"main.c", by decide⟩ (.file "x\n".toUTF8) .nil)

/-- A folder and a link to it. -/
def linkedFolder : FileSystem where
  top := .leaf ⟨"latest", by decide⟩ (.link "release/")
    (.folder ⟨"release", by decide⟩ releaseFolder .nil)
  workingDirectory := []
  ordered := by decide
  startsInFolder := ⟨_, rfl⟩

theorem run_respelled_through_link :
    let plain : Path := ⟨"release"⟩
    let linked : Path := ⟨".//latest/../latest/."⟩
    let release : Place := .node [⟨"release", by decide⟩] (.folder releaseFolder)
    linkedFolder.resolve .use plain = .ok release ∧ linkedFolder.resolve .use linked = .ok release ∧
      linkedFolder.sourceFiles .default plain = .ok [⟨"release/main.c"⟩] ∧
      linkedFolder.sourceFiles .default linked = .ok [⟨".//latest/../latest/./main.c"⟩] ∧
      (standard.run plain linkedFolder).outcome = .ok (Summary.empty.record "C-style") ∧
      (standard.run linked linkedFolder).outcome = .ok (Summary.empty.record "C-style") ∧
      (standard.run plain linkedFolder).files = (standard.run linked linkedFolder).files := by
  have finds : linkedFolder.sourceFiles .default ⟨"release"⟩ = .ok [⟨"release/main.c"⟩] := by rfl
  have findsToo : linkedFolder.sourceFiles .default ⟨".//latest/../latest/."⟩ =
      .ok [⟨".//latest/../latest/./main.c"⟩] := by rfl
  have leads : linkedFolder.resolve .use ⟨"release"⟩ =
      .ok (.node [⟨"release", by decide⟩] (.folder releaseFolder)) := by rfl
  have leadsToo : linkedFolder.resolve .use ⟨".//latest/../latest/."⟩ =
      .ok (.node [⟨"release", by decide⟩] (.folder releaseFolder)) := by rfl
  have succeeds : (standard.run ⟨"release"⟩ linkedFolder).outcome =
      .ok (Summary.empty.record "C-style") := by rfl
  have succeedsToo : (standard.run ⟨".//latest/../latest/."⟩ linkedFolder).outcome =
      .ok (Summary.empty.record "C-style") := by rfl
  intro plain linked release
  obtain ⟨-, -, long | long | ⟨same, -⟩⟩ := run_respelled leads leadsToo standard
  · obtain ⟨error, fails, -⟩ := long
    cases succeeds.symm.trans fails
  · obtain ⟨error, fails, -⟩ := long
    cases succeedsToo.symm.trans fails
  · exact ⟨leads, leadsToo, finds, findsToo, succeeds, succeedsToo, same⟩

/-- Behind a root that leaves no room for its name a file cannot be read. -/
theorem run_differs_at_long_root :
    let name : FileName := ⟨"a_source_file_whose_name_does_not_fit_behind_a_long_root.c", by decide⟩
    let files := oneFile name "x\n".toUTF8
    let far := farRoot 4059
    files.resolve .use ⟨"."⟩ = .ok (.node [] (.folder files.top)) ∧
      files.resolve .use far = .ok (.node [] (.folder files.top)) ∧
      (standard.run ⟨"."⟩ files).outcome = .ok (Summary.empty.record "C-style") ∧
      (standard.run far files).outcome = .error (.reading (far.join name.text) .nameTooLong) := by
  have succeeds : (standard.run ⟨"."⟩ (oneFile
      ⟨"a_source_file_whose_name_does_not_fit_behind_a_long_root.c", by decide⟩ "x\n".toUTF8)).outcome =
      .ok (Summary.empty.record "C-style") := by rfl
  intro name files far
  have short : 4058 + 1 < Path.limit := by decide
  have exceeds : Path.limit < 4058 + 2 + name.text.utf8ByteSize := by decide
  have resolved : standard.styles.resolve name.text = some .c := by decide
  exact ⟨rfl, resolve_farRoot short rfl .use, succeeds,
    (run_farRoot short exceeds resolved "x\n".toUTF8).2⟩

end Processor

end CopyrightHeader

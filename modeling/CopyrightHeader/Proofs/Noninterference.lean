import CopyrightHeader.Proofs.PathNames
import CopyrightHeader.Proofs.Plan
import CopyrightHeader.Proofs.Unseen
import CopyrightHeader.Proofs.WalkedFiles
import Mathlib.Data.List.Forall2

/-! What a run does not look at.

The folders that are left out, the targets of the links below the root and the contents of files
without a style have no part in a run: on trees that differ only there it does the same and has the
same outcome, whether it fails or not, and in neither tree it touches any of that.
-/

set_option autoImplicit false

namespace CopyrightHeader

namespace FileSystem

variable {files : FileSystem} {root : Path} {location : List FileName} {inner : Directory}

theorem nodeAt_mapFiles_of_keeps {change : List FileName → ByteArray → ByteArray}
    (keeps : ∀ below content, change (location ++ below) content = content) :
    (files.mapFiles change).top.nodeAt location = files.top.nodeAt location := by
  rw [nodeAt_mapFiles]
  rcases files.top.nodeAt location with _ | ((content | target) | inner)
  · rfl
  · have kept := keeps [] content
    rw [List.append_nil] at kept
    rw [Option.map_some, Node.mapFiles, kept]
  · rfl
  · rw [Option.map_some, Node.mapFiles]
    exact congrArg (some ∘ Node.folder) (Directory.mapFiles_eq_self _ _ fun below _ => keeps below)

theorem resolve_use_of_folder
    (looks : files.resolve .inspect root = .ok (.node location (.folder inner))) :
    files.resolve .use root = .ok (.node location (.folder inner)) := by
  rcases files.resolve_inspect_cases root with same | ⟨_, _, link⟩
  · exact same.symm.trans looks
  · cases looks.symm.trans link

/-- The folder that a walk from a path starts in. -/
def startOf (files : FileSystem) (root : Path) : Option (List FileName) :=
  match files.resolve .use root with
  | .ok (.node location (.folder _)) => some location
  | _ => none

theorem startOf_of_folder (leads : files.resolve .use root = .ok (.node location (.folder inner))) :
    files.startOf root = some location := by
  rw [startOf, leads]

end FileSystem

namespace Processor

/-- What a run does not look at: what is inside the folders that are left out, where the links below
the start lead, and what files without a style say. -/
def unseen (processor : Processor) (root : Path) (files : FileSystem) : Unseen where
  name name := processor.styles.resolve name.text = none
  folder location := ∃ start, files.startOf root = some start ∧
    ∃ way, location = start ++ way ∧ processor.exclusions.excludes root (root.below way) = true
  links location := ∃ start, files.startOf root = some start ∧ start <+: location

variable {processor : Processor} {root : Path} {files first second : FileSystem}
  {location : List FileName} {inner inner' : Directory}

/-! ## The start -/

theorem unseen_eq_of_startOf (same : second.startOf root = first.startOf root) :
    processor.unseen root second = processor.unseen root first := by
  rw [unseen, unseen, same]

/-- Folders that are not looked into are left out. -/
theorem excludes_of_unseen_folder
    (leads : files.resolve .use root = .ok (.node location (.folder inner))) {way : List FileName}
    (hidden : (processor.unseen root files).folder (location ++ way)) :
    processor.exclusions.excludes root (root.below way) = true := by
  obtain ⟨start, starts, other, same, excluded⟩ := hidden
  cases (FileSystem.startOf_of_folder leads).symm.trans starts
  rw [List.append_cancel_left same]
  exact excluded

theorem not_inside_start
    (leads : files.resolve .use root = .ok (.node location (.folder inner))) :
    ¬ (processor.unseen root files).Inside location := by
  rintro ⟨front, name, below, same, start, starts, way, rfl, -⟩
  cases (FileSystem.startOf_of_folder leads).symm.trans starts
  have lengths := congrArg List.length same
  simp only [List.length_append, List.length_cons] at lengths
  omega

theorem alike_start (alike : first.Alike (processor.unseen root first) second)
    (leads : first.resolve .use root = .ok (.node location (.folder inner)))
    (leadsToo : second.resolve .use root = .ok (.node location (.folder inner'))) :
    Directory.Alike (processor.unseen root first) location inner inner' := by
  have here := alike.nodeAt (not_inside_start leads)
  rw [FileSystem.nodeAt_of_resolve leads, FileSystem.nodeAt_of_resolve leadsToo] at here
  cases here with
  | folder inside =>
    apply inside
    intro hidden
    rw [← List.append_nil location] at hidden
    have excluded := excludes_of_unseen_folder leads hidden
    rw [Exclusions.excludes_below (FileSystem.resolve_eq_ok.1 leads).1] at excluded
    cases excluded

/-! ## The walk -/

theorem walk_eq_of_folder (alike : first.Alike (processor.unseen root first) second)
    (leads : first.resolve .use root = .ok (.node location (.folder inner)))
    (leadsToo : second.resolve .use root = .ok (.node location (.folder inner'))) :
    second.walk processor.exclusions root = first.walk processor.exclusions root := by
  rw [FileSystem.walk_of_folder leads, FileSystem.walk_of_folder leadsToo,
    (alike_start alike leads leadsToo).visits_eq fun way => excludes_of_unseen_folder leads]

section

variable (alike : first.Alike (processor.unseen root first) second)
  (sameWay : ∀ location ∈ first.trail root, first.top.LooksSame second.top location)

include alike sameWay

theorem outline_eq (purpose : Purpose) :
    (second.resolve purpose root).map Place.outline =
      (first.resolve purpose root).map Place.outline :=
  FileSystem.resolve_outline alike.workingDirectory sameWay purpose

theorem startOf_eq : second.startOf root = first.startOf root := by
  rw [FileSystem.startOf, FileSystem.startOf]
  rcases FileSystem.resolve_cases_of_outline (outline_eq alike sameWay .use) with ⟨_, here, there⟩ |
    ⟨_, here, there⟩ | ⟨_, _, _, here, there⟩ | ⟨_, _, here, there⟩ | ⟨_, _, _, here, there⟩
  all_goals rw [here, there]

theorem walk_eq : second.walk processor.exclusions root = first.walk processor.exclusions root := by
  rcases FileSystem.resolve_cases_of_outline (outline_eq alike sameWay .inspect) with ⟨_, here, there⟩ |
    ⟨_, here, there⟩ | ⟨_, _, _, here, there⟩ | ⟨_, _, here, there⟩ | ⟨_, _, _, here, there⟩
  · simp only [FileSystem.walk, here, there]
  · simp only [FileSystem.walk, here, there]
  · simp only [FileSystem.walk, here, there]
  · rcases FileSystem.resolve_cases_of_outline (outline_eq alike sameWay .use) with ⟨_, leads, leadsToo⟩ |
      ⟨_, leads, leadsToo⟩ | ⟨_, _, _, leads, leadsToo⟩ | ⟨_, _, leads, leadsToo⟩ |
      ⟨_, _, _, leads, leadsToo⟩
    · simp only [FileSystem.walk, here, there, leads, leadsToo]
    · simp only [FileSystem.walk, here, there, leads, leadsToo]
    · simp only [FileSystem.walk, here, there, leads, leadsToo]
    · simp only [FileSystem.walk, here, there, leads, leadsToo]
    · exact walk_eq_of_folder alike leads leadsToo
  · exact walk_eq_of_folder alike (FileSystem.resolve_use_of_folder here)
      (FileSystem.resolve_use_of_folder there)

theorem sourceFiles_eq : second.sourceFiles processor.exclusions root =
    first.sourceFiles processor.exclusions root := by
  rw [FileSystem.sourceFiles, FileSystem.sourceFiles, walk_eq alike sameWay]

end

/-! ## The sources -/

/-- Two sources that only differ in a content that is not looked at. -/
structure SameToRun (processor : Processor) (source other : Source) : Prop where
  path : other.path = source.path
  location : other.location = source.location
  content : ∀ style, processor.styleOf source.path = some style → other.content = source.content

/-- A style goes by the name of the file. -/
theorem seen_of_styled {name : FileName} {path : Path} {style : CommentStyle}
    (named : path.fileName = some name.text) (styled : processor.styleOf path = some style) :
    ¬ (processor.unseen root files).name name := by
  intro unstyled
  rw [styleOf, named, Option.bind_some, show processor.styles.resolve name.text = none from unstyled]
    at styled
  cases styled

/-- No walk comes into a folder that is left out. -/
theorem not_inside_of_mem_sources {source : Source}
    (member : source ∈ files.sources processor.exclusions root) :
    ¬ (processor.unseen root files).Inside source.location := by
  rintro ⟨front, name, below, same, start, starts, way, rfl, excluded⟩
  have started := starts
  unfold FileSystem.startOf at started
  split at started
  · next start inner leads =>
    cases started
    rw [FileSystem.sources_of_folder leads] at member
    obtain ⟨whole, inside, rfl⟩ := List.mem_map.1 member
    have notEmpty := (FileSystem.resolve_eq_ok.1 leads).1
    have split : whole = way ++ name :: below := by
      simpa [FileSystem.sourceBelow] using same
    have unpruned := (Directory.mem_included_iff.1 inside).2
    -- The folder on the way that is left out is one of those around the file.
    have around : way <+: whole.dropLast := by
      rw [split, List.dropLast_append_of_ne_nil (List.cons_ne_nil _ _)]
      exact List.prefix_append _ _
    have down : way ≠ [] := by
      rintro rfl
      rw [Exclusions.excludes_below notEmpty] at excluded
      cases excluded
    cases excluded.symm.trans (unpruned way around down)
  · cases started

/-- What stands in the place of a source in the other tree: the same, if the source has a style. -/
theorem exists_content (alike : first.Alike (processor.unseen root first) second) {source : Source}
    (member : source ∈ first.sources processor.exclusions root) :
    ∃ content, second.top.nodeAt source.location = some (.leaf (.file content)) ∧
      ∀ style, processor.styleOf source.path = some style → content = source.content := by
  have here := alike.nodeAt (not_inside_of_mem_sources member)
  rw [(FileSystem.holds_of_mem_sources member).1] at here
  generalize place : source.location = location at here ⊢
  generalize second.top.nodeAt location = entry at here ⊢
  cases here with
  | @file front name _ content same =>
    refine ⟨content, rfl, fun style styled => same ?_⟩
    obtain ⟨way, last, ends, named⟩ := FileSystem.fileName_of_mem_sources member
    obtain ⟨-, rfl⟩ := List.append_singleton_inj.1 (ends.symm.trans place)
    exact seen_of_styled named styled

theorem sameToRun_sources (alike : first.Alike (processor.unseen root first) second)
    (sameWay : ∀ location ∈ first.trail root, first.top.LooksSame second.top location)
    {paths : List Path} (found : first.sourceFiles processor.exclusions root = .ok paths) :
    List.Forall₂ (SameToRun processor) (first.sources processor.exclusions root)
      (second.sources processor.exclusions root) := by
  have foundToo := (sourceFiles_eq alike sameWay).trans found
  rcases FileSystem.root_cases found with ⟨location, content, looks⟩ | ⟨location, inner, leads⟩ |
    ⟨_, _, _, _, _, _, rfl⟩
  · obtain ⟨content', looksToo⟩ :=
      FileSystem.exists_file_of_outline (outline_eq alike sameWay .inspect) looks
    have member : ⟨root, location, content⟩ ∈ first.sources processor.exclusions root := by
      rw [FileSystem.sources_of_file looks]
      exact List.mem_cons_self
    obtain ⟨other, there, same⟩ := exists_content alike member
    rw [FileSystem.nodeAt_of_resolve looksToo] at there
    cases there
    rw [FileSystem.sources_of_file looks, FileSystem.sources_of_file looksToo]
    exact .cons ⟨rfl, rfl, same⟩ .nil
  · obtain ⟨inner', leadsToo⟩ :=
      FileSystem.exists_folder_of_outline (outline_eq alike sameWay .use) leads
    have included := (alike_start alike leads leadsToo).included_eq fun way =>
      excludes_of_unseen_folder leads
    have collected : first.sources processor.exclusions root = _ := FileSystem.sources_of_folder leads
    rw [collected, FileSystem.sources_of_folder leadsToo, included,
      List.forall₂_map_left_iff, List.forall₂_map_right_iff, List.forall₂_same]
    intro way inside
    have member : first.sourceBelow root location way ∈ first.sources processor.exclusions root := by
      rw [collected]
      exact List.mem_map_of_mem inside
    obtain ⟨content, there, same⟩ := exists_content alike member
    refine ⟨rfl, rfl, fun style styled => ?_⟩
    rw [← same style styled]
    simp only [FileSystem.sourceBelow, FileSystem.contentAt] at there ⊢
    rw [there]
  -- A root that is a link to a file has no sources.
  · rw [List.map_eq_nil_iff.1 (FileSystem.map_path_sources found),
      List.map_eq_nil_iff.1 (FileSystem.map_path_sources foundToo)]
    exact .nil

/-- Sources that are the same to a run have the same plan. -/
theorem plan_eq_of_sameToRun {sources others : List Source}
    (same : List.Forall₂ (SameToRun processor) sources others) (summary : Summary) :
    processor.plan others summary = processor.plan sources summary := by
  induction same generalizing summary with
  | nil => rfl
  | @cons source other sources others head _ ih =>
    have sameStyle : processor.styleOf other.path = processor.styleOf source.path := by
      rw [head.path]
    cases styled : processor.styleOf source.path with
    | none =>
      rw [plan_cons_of_unstyled styled, plan_cons_of_unstyled (sameStyle.trans styled), head.path, ih]
    | some style =>
      have revises : processor.revise style other = processor.revise style source := by
        rw [revise, revise, head.path, head.content style styled]
      cases revised : processor.revise style source with
      | error error =>
        rw [plan_cons_of_error styled revised,
          plan_cons_of_error (sameStyle.trans styled) (revises.trans revised)]
      | ok content =>
        rw [plan_cons_of_ok styled revised,
          plan_cons_of_ok (sameStyle.trans styled) (revises.trans revised), head.path, head.location, ih]

/-! ## The run -/

/-- Nothing is written inside a folder that is left out, or to a file without a style. -/
theorem seen_of_mem_writes {write : List FileName × ByteArray}
    (member : write ∈ (processor.plan (files.sources processor.exclusions root) .empty).writes) :
    ¬ (processor.unseen root files).Inside write.1 ∧
      ∀ front name, write.1 = front ++ [name] → ¬ (processor.unseen root files).name name := by
  obtain ⟨source, inside, place, style, styled⟩ := exists_source_of_mem_writes member
  rw [← place]
  refine ⟨not_inside_of_mem_sources inside, fun front name ends => ?_⟩
  obtain ⟨way, last, same, named⟩ := FileSystem.fileName_of_mem_sources inside
  obtain ⟨-, rfl⟩ := List.append_singleton_inj.1 (same.symm.trans ends)
  exact seen_of_styled named styled

/-- A run leaves alone what it does not look at. -/
theorem nodeAt_run_of_hides (processor : Processor) (root : Path) (files : FileSystem)
    {location : List FileName} (hidden : (processor.unseen root files).Hides files location) :
    (processor.run root files).files.top.nodeAt location = files.top.nodeAt location := by
  cases found : files.sourceFiles processor.exclusions root with
  | error error => rw [(run_of_walk_error found).1]
  | ok paths =>
    rw [(run_eq_plan found).1]
    rcases hidden with inside | ⟨_, _, target, -, here, -⟩ | ⟨front, name, content, rfl, here, unread⟩
    · apply FileSystem.nodeAt_mapFiles_of_keeps
      intro below content
      apply Plan.change_of_notMem
      intro write member same
      obtain ⟨front, name, deeper, rfl, folder⟩ := inside
      exact (seen_of_mem_writes member).1 ⟨front, name, deeper ++ below, by rw [same]; simp, folder⟩
    · rw [FileSystem.nodeAt_mapFiles, here]
      rfl
    · rw [FileSystem.nodeAt_mapFiles, here, Option.map_some, Node.mapFiles, Plan.change_of_notMem]
      exact fun write member same => (seen_of_mem_writes member).2 front name same unread

/-- Two trees that differ only in what a run does not look at: in folders that are left out, in the
targets of links below the root, and in files without a style. If none of this stands in the way to
the root, the runs on both have the same outcome and leave trees that differ in nothing else, and
neither has touched any of it. -/
theorem noninterference (alike : first.Alike (processor.unseen root first) second)
    (sameWay : ∀ location ∈ first.trail root, first.top.LooksSame second.top location) :
    let unseen := processor.unseen root first
    let run := processor.run root first
    let runToo := processor.run root second
    runToo.outcome = run.outcome ∧ run.files.Alike unseen runToo.files ∧
      (∀ location, unseen.Hides first location →
        run.files.top.nodeAt location = first.top.nodeAt location) ∧
      ∀ location, unseen.Hides second location →
        runToo.files.top.nodeAt location = second.top.nodeAt location := by
  have sameUnseen : processor.unseen root second = processor.unseen root first :=
    unseen_eq_of_startOf (startOf_eq alike sameWay)
  intro unseen run runToo
  have untouched : ∀ location, unseen.Hides first location →
      run.files.top.nodeAt location = first.top.nodeAt location :=
    fun location => processor.nodeAt_run_of_hides root first
  have untouchedToo : ∀ location, unseen.Hides second location →
      runToo.files.top.nodeAt location = second.top.nodeAt location := by
    intro location hidden
    rw [show unseen = _ from sameUnseen.symm] at hidden
    exact processor.nodeAt_run_of_hides root second hidden
  cases found : first.sourceFiles processor.exclusions root with
  | error error =>
    obtain ⟨kept, outcome⟩ := run_of_walk_error found
    obtain ⟨keptToo, outcomeToo⟩ := run_of_walk_error ((sourceFiles_eq alike sameWay).trans found)
    refine ⟨outcomeToo.trans outcome.symm, ?_, untouched, untouchedToo⟩
    rw [show run.files = _ from kept, show runToo.files = _ from keptToo]
    exact alike
  | ok paths =>
    obtain ⟨leaves, outcome⟩ := run_eq_plan found
    obtain ⟨leavesToo, outcomeToo⟩ := run_eq_plan ((sourceFiles_eq alike sameWay).trans found)
    have samePlan := plan_eq_of_sameToRun (sameToRun_sources alike sameWay found) .empty
    rw [samePlan] at leavesToo outcomeToo
    refine ⟨outcomeToo.trans outcome.symm, ?_, untouched, untouchedToo⟩
    rw [show run.files = _ from leaves, show runToo.files = _ from leavesToo]
    exact alike.mapFiles _

/-- A tree with a text and a file that is no text, and with what may differ between them. -/
def vendoredWith (notes : ByteArray) (target : String) (vendor : Directory)
    (ordered : vendor.Ordered) : FileSystem where
  top := .leaf ⟨"lib.c", by decide⟩ (.file "x\n".toUTF8)
    (.leaf ⟨"notes.txt", by decide⟩ (.file notes)
      (.leaf ⟨"parser.c", by decide⟩ (.link target)
        (.folder ⟨"vendor", by decide⟩ vendor
          (.leaf ⟨"z.c", by decide⟩ (.file ⟨#[0xff]⟩) .nil))))
  workingDirectory := []
  ordered := by simp [Directory.Ordered, Directory.names, ordered]; decide
  startsInFolder := ⟨_, rfl⟩

/-- A run fails at the file that is no text, with a vendored file that opens a header and with no
vendored file at all. -/
theorem noninterference_of_vendored :
    let careful : Processor := { standard with exclusions := .ofEntries ["vendor"] }
    let unclosed : Directory := .leaf ⟨"zlib.c", by decide⟩ (.file "/*-\n".toUTF8) .nil
    let first := vendoredWith ⟨#[0xff]⟩ "lib.c" unclosed (by decide)
    let second := vendoredWith "plain\n".toUTF8 "nowhere" .nil trivial
    let unseen := careful.unseen ⟨"."⟩ first
    first.Alike unseen second ∧
      (∀ location ∈ first.trail ⟨"."⟩, first.top.LooksSame second.top location) ∧
      (careful.run ⟨"."⟩ first).outcome = .error (.reading ⟨"./z.c"⟩ .notText) ∧
      (careful.run ⟨"."⟩ second).outcome = .error (.reading ⟨"./z.c"⟩ .notText) ∧
      (careful.run ⟨"."⟩ first).files.Alike unseen (careful.run ⟨"."⟩ second).files ∧
      (careful.run ⟨"."⟩ first).files.top.nodeAt
          [⟨"vendor", by decide⟩, ⟨"zlib.c", by decide⟩] =
        some (.leaf (.file "/*-\n".toUTF8)) := by
  intro careful unclosed first second unseen
  have alike : first.Alike unseen second := by
    refine ⟨rfl, .file (fun _ => rfl) (.file (fun seen => absurd ?_ seen)
      (.link (fun seen => absurd ⟨[], rfl, List.nil_prefix⟩ seen)
        (.sealed ⟨[], rfl, [⟨"vendor", by decide⟩], rfl, by decide⟩
          (.file (fun _ => rfl) .nil))))⟩
    show StyleTable.resolve _ _ = none
    decide
  have sameWay : ∀ location ∈ first.trail ⟨"."⟩, first.top.LooksSame second.top location := by
    intro location member
    rw [List.mem_singleton.1 (show location ∈ [[]] from member)]
    rfl
  have fails : (careful.run ⟨"."⟩ first).outcome = .error (.reading ⟨"./z.c"⟩ .notText) := by rfl
  have hidden : unseen.Hides first [⟨"vendor", by decide⟩, ⟨"zlib.c", by decide⟩] :=
    .inl ⟨[⟨"vendor", by decide⟩], _, [], rfl,
      [], rfl, [⟨"vendor", by decide⟩], rfl, by decide⟩
  obtain ⟨same, leaves, untouched, -⟩ := noninterference alike sameWay
  exact ⟨alike, sameWay, fails, same.trans fails, leaves, untouched _ hidden⟩

end Processor

end CopyrightHeader

import CopyrightHeader.Proofs.Agreement
import CopyrightHeader.Proofs.Convergence
import CopyrightHeader.Proofs.Recovery
import CopyrightHeader.Proofs.RunOutcome
import Mathlib.Data.List.Nodup

/-! Runs after runs.

If all that a processor writes can be taken off again, its runs leave trees that agree with those
they started from, whether they come to their end or not. So the last of many runs decides what is
in the tree, and a run that failed can be resumed.
-/

set_option autoImplicit false

namespace CopyrightHeader

/-- The file that an error is about; if the walk failed, there is none. -/
def RunError.file? : RunError → Option Path
  | .walking _ _ => none
  | .reading path _ => some path
  | .header path _ => some path
  | .writing path _ => some path

namespace Processor

variable {processor : Processor} {root : Path} {files : FileSystem}

/-! ## Headers that come off again -/

/-- No marker and no line of a header has a line break, or ends in a carriage return. -/
def WritesLineSafe (processor : Processor) : Prop :=
  ∀ rule ∈ processor.styles.rules,
    Text.LineSafe rule.style.opening.toList ∧ Text.LineSafe rule.style.closing.toList ∧
      ∀ line ∈ processor.notice.lines, Text.LineSafe (rule.style.formatLine line).toList

instance (processor : Processor) : Decidable processor.WritesLineSafe :=
  inferInstanceAs (Decidable (∀ rule ∈ processor.styles.rules, _))

/-- In every style that a name can get, the header comes off again. -/
def Recovers (processor : Processor) : Prop :=
  ∀ name style, processor.styles.resolve name = some style →
    Header.Recoverable style processor.notice

theorem recovers_of_conflict? (converges : processor.styles.conflict? processor.notice = none)
    (safe : processor.WritesLineSafe) : processor.Recovers := by
  intro name style resolved
  obtain ⟨rule, found, rfl⟩ := Option.map_eq_some_iff.1 resolved
  obtain ⟨openingSafe, closingSafe, linesSafe⟩ := safe rule (List.mem_of_find?_eq_some found)
  apply (Header.recoverable_iff_of_lineSafe openingSafe closingSafe linesSafe).2
  exact StyleTable.formatLine_ne_closing converges resolved

theorem recovers_of_make {notice : Notice} {styles : StyleTable} {exclusions : Exclusions}
    (accepted : make notice styles exclusions = .ok processor) (safe : processor.WritesLineSafe) :
    processor.Recovers := by
  obtain ⟨converges, rfl⟩ := make_eq_ok.1 accepted
  exact recovers_of_conflict? converges safe

/-! ## What a run leaves -/

theorem fromUTF8?_toUTF8 (text : String) : String.fromUTF8? text.toUTF8 = some text :=
  dif_pos text.isValidUTF8

theorem sameBody_of_recoverable {style : CommentStyle} {notice : Notice}
    (recoverable : Header.Recoverable style notice) {content : ByteArray} {text body : String}
    (decoded : String.fromUTF8? content = some text) (stripped : Header.strip style text = .ok body) :
    Header.SameBody style content (Header.render style notice ++ body).toUTF8 :=
  ⟨text, _, body, decoded, fromUTF8?_toUTF8 _, stripped,
    Header.strip_render_append_of_recoverable recoverable body⟩

/-- An updated tree agrees with the one from before. -/
theorem Revises.agree {before after : FileSystem} {sources : List Source}
    (revises : processor.Revises before after sources) (recovers : processor.Recovers)
    (held : ∀ source ∈ sources, before.Holds source) : processor.Agree before after sources := by
  obtain ⟨change, rfl⟩ := revises.entries
  refine ⟨change, rfl, fun location content found => ?_⟩
  by_cases touched : ∃ source ∈ sources, source.location = location ∧
      ∃ style, processor.styleOf source.path = some style
  -- What stood below the old header stands below the new one.
  · obtain ⟨source, member, rfl, style, styled⟩ := touched
    obtain ⟨text, body, decoded, stripped, written⟩ := revises.updated source member style styled
    have old := (held source member).1
    rw [found] at old
    rw [FileSystem.nodeAt_mapFiles, found] at written
    simp only [Option.some.injEq, Node.leaf.injEq, Leaf.file.injEq, Option.map_some, Node.mapFiles]
      at old written
    obtain ⟨name, -, resolved⟩ := Option.bind_eq_some_iff.1 styled
    refine .inr ⟨source, member, rfl, style, styled, ?_⟩
    rw [old, ← old, written]
    exact sameBody_of_recoverable (recovers name style resolved) (old ▸ decoded) stripped
  · have untouched : ∀ source ∈ sources, source.location = location →
        processor.styleOf source.path = none := by
      intro source member place
      apply Option.eq_none_iff_forall_ne_some.2
      exact fun style styled => touched ⟨source, member, place, style, styled⟩
    have kept := revises.others location content untouched found
    rw [FileSystem.nodeAt_mapFiles, found] at kept
    simp only [Option.some.injEq, Node.leaf.injEq, Leaf.file.injEq, Option.map_some, Node.mapFiles]
      at kept
    exact .inl kept

/-- Any run leaves a tree that agrees with the one it started from, also one that fails. -/
theorem agree_run (recovers : processor.Recovers) (root : Path) (files : FileSystem) :
    processor.Agree files (processor.run root files).files
      (files.sources processor.exclusions root) := by
  cases found : files.sourceFiles processor.exclusions root with
  | error error =>
    rw [(run_of_walk_error found).1]
    exact .refl processor files _
  | ok paths =>
    have held : ∀ source ∈ files.sources processor.exclusions root, files.Holds source :=
      fun _ => FileSystem.holds_of_mem_sources
    rcases run_cases found with ⟨-, -, revises⟩ | ⟨done, failing, rest, _, split, -, -, -, -, revises⟩
    · exact revises.agree recovers held
    · rw [split] at held ⊢
      have agree := revises.agree recovers fun source member =>
        held source (List.mem_append_left _ member)
      exact agree.of_places fun source member =>
        ⟨source, List.mem_append_left _ member, rfl, rfl⟩

/-- A run on what a run left is as good as one on the tree from before. -/
theorem run_matches_run_run (recovers : processor.Recovers) {other : Processor}
    (styles : other.styles = processor.styles) (exclusions : other.exclusions = processor.exclusions)
    (root : Path) (files : FileSystem) :
    (other.run root files).Matches (other.run root (processor.run root files).files) := by
  apply Agree.run
  rw [exclusions]
  exact (agree_run recovers root files).of_styles styles

/-! ## The last run wins -/

/-- The first runs on the tree, each other on what the one in front of it left. -/
def runInTurn : List Processor → Path → FileSystem → List Run
  | [], _, _ => []
  | processor :: others, root, files =>
    processor.run root files :: runInTurn others root (processor.run root files).files

theorem rejects_iff_of_styles {other : Processor} (styles : other.styles = processor.styles)
    (source : Source) : other.Rejects source ↔ processor.Rejects source := by
  rw [Rejects, Rejects, styleOf_of_styles styles]

/-- Whether a run succeeds, and with which counts, has nothing to do with the notice. -/
theorem run_ok_of_styles {other : Processor} (styles : other.styles = processor.styles)
    (exclusions : other.exclusions = processor.exclusions) {summary : Summary}
    (succeeds : (processor.run root files).outcome = .ok summary) :
    (other.run root files).outcome = .ok summary := by
  cases found : files.sourceFiles processor.exclusions root with
  | error error =>
    rw [(run_of_walk_error found).2] at succeeds
    cases succeeds
  | ok paths =>
    have foundToo : files.sourceFiles other.exclusions root = .ok paths := by rw [exclusions, found]
    have sameTally : other.tally = processor.tally := by
      funext summary path
      rw [tally, tally, styles]
    rcases run_cases found with ⟨accepted, outcome, -⟩ | ⟨_, _, _, _, -, -, -, -, outcome, -⟩
    · rcases run_cases foundToo with ⟨-, outcomeToo, -⟩ | ⟨done, failing, rest, _, split, -, rejected, -⟩
      · rw [outcomeToo, sameTally, ← outcome, succeeds]
      · -- What the one rejects the other would have rejected.
        rw [exclusions] at split
        have member : failing ∈ files.sources processor.exclusions root := by simp [split]
        exact absurd ((rejects_iff_of_styles styles failing).1 rejected) (accepted failing member)
    · rw [outcome] at succeeds
      cases succeeds

/-- If the first of many runs with line-safe headers succeeds, they all do with the same counts, and
the tree they leave is that of the last run alone. -/
theorem last_run_wins {styles : StyleTable} {exclusions : Exclusions} {first : Processor}
    {others : List Processor}
    (accepted : ∀ processor ∈ first :: others, ∃ notice, make notice styles exclusions = .ok processor)
    (safe : ∀ processor ∈ first :: others, processor.WritesLineSafe) {root : Path}
    {files : FileSystem} {summary : Summary}
    (succeeds : (first.run root files).outcome = .ok summary) :
    let runs := runInTurn (first :: others) root files
    let alone := ((first :: others).getLast (List.cons_ne_nil _ _)).run root files
    (∀ run ∈ runs, run.outcome = .ok summary) ∧ alone.outcome = .ok summary ∧
      runs.getLast?.map (·.files) = some alone.files := by
  -- The later runs are a sequence of their own, on the tree that the first one left.
  induction others generalizing first files with
  | nil => simp [runInTurn, succeeds]
  | cons next others ih =>
    obtain ⟨notice, made⟩ := accepted first List.mem_cons_self
    have recovers := recovers_of_make made (safe first List.mem_cons_self)
    have same {other : Processor} (member : other ∈ next :: others) :
        other.styles = first.styles ∧ other.exclusions = first.exclusions := by
      obtain ⟨otherNotice, madeToo⟩ := accepted other (List.mem_cons_of_mem _ member)
      obtain ⟨-, rfl⟩ := make_eq_ok.1 made
      obtain ⟨-, rfl⟩ := make_eq_ok.1 madeToo
      exact ⟨rfl, rfl⟩
    -- Each later processor does on what the first left as it would have done at the start.
    have later {other : Processor} (member : other ∈ next :: others) :
        (other.run root files).outcome = .ok summary ∧
          (other.run root files).Matches (other.run root (first.run root files).files) :=
      ⟨run_ok_of_styles (same member).1 (same member).2 succeeds,
        run_matches_run_run recovers (same member).1 (same member).2 root files⟩
    obtain ⟨nextSucceeds, nextMatches⟩ := later List.mem_cons_self
    obtain ⟨all, -, ends⟩ := ih (fun other member => accepted other (List.mem_cons_of_mem _ member))
      (fun other member => safe other (List.mem_cons_of_mem _ member))
      (nextMatches.outcome.trans nextSucceeds)
    obtain ⟨lastSucceeds, lastMatches⟩ := later (List.getLast_mem (List.cons_ne_nil next others))
    intro runs alone
    have last : (first :: next :: others).getLast (List.cons_ne_nil _ _) =
        (next :: others).getLast (List.cons_ne_nil _ _) := List.getLast_cons_cons
    refine ⟨?_, ?_, ?_⟩
    · intro run member
      rcases List.mem_cons.1 member with rfl | member
      · exact succeeds
      · exact all run member
    · rw [show alone = _ from congrArg (Processor.run · root files) last]
      exact lastSucceeds
    · rw [show alone = _ from congrArg (Processor.run · root files) last,
        ← lastMatches.files summary lastSucceeds, ← ends]
      rfl

/-- A C file, a script with an old header, and a file without a style. -/
def textAndScript : FileSystem where
  top := .leaf ⟨"lexer.c", by decide⟩ (.file "x\n".toUTF8)
    (.folder ⟨"tools", by decide⟩
      (.leaf ⟨"count.py", by decide⟩ (.file "#-\n# old\n#-\n\ny\n".toUTF8) .nil)
      (.leaf ⟨"zlib.txt", by decide⟩ (.file ⟨#[0xff]⟩) .nil))
  workingDirectory := []
  ordered := by decide
  startsInFolder := ⟨_, rfl⟩

def reassigned : Processor := ⟨⟨["Copyright (c) 2018 The Successor", "", "All rights reserved."]⟩,
  ⟨[⟨.suffix ".c", .c⟩, ⟨.suffix ".py", ⟨"Framed", "#-", "#", "#-"⟩⟩]⟩, .default⟩

theorem last_of_three_wins :
    let original : Processor := { reassigned with notice := .default }
    let counts := ((Summary.empty.record "C-style").record "Framed").skip
    (∀ processor ∈ [original, original, reassigned], ∃ notice,
        make notice reassigned.styles .default = .ok processor) ∧
      (∀ processor ∈ [original, original, reassigned], processor.WritesLineSafe) ∧
      (original.run ⟨"."⟩ textAndScript).outcome = .ok counts ∧
      (∀ run ∈ runInTurn [original, original, reassigned] ⟨"."⟩ textAndScript,
        run.outcome = .ok counts) ∧
      (runInTurn [original, original, reassigned] ⟨"."⟩ textAndScript).getLast?.map (·.files) =
        some (reassigned.run ⟨"."⟩ textAndScript).files := by
  intro original counts
  have accepted : ∀ processor ∈ [original, original, reassigned], ∃ notice,
      make notice reassigned.styles .default = .ok processor := by
    simp only [List.forall_mem_cons, List.not_mem_nil, false_implies, implies_true, and_true]
    exact ⟨⟨.default, by decide⟩, ⟨.default, by decide⟩, reassigned.notice, by decide⟩
  have safe : ∀ processor ∈ [original, original, reassigned], processor.WritesLineSafe := by decide
  have succeeds : (original.run ⟨"."⟩ textAndScript).outcome = .ok counts := by rfl
  obtain ⟨all, -, ends⟩ := last_run_wins accepted safe succeeds
  exact ⟨accepted, safe, succeeds, all, ends⟩

/-! ## Resuming a failed run -/

theorem FailsAt.file?_eq {path : Path} {error : RunError} (fails : FailsAt path error) :
    error.file? = some path := by
  rcases fails with ⟨cause, rfl⟩ | ⟨fault, rfl⟩
  · rfl
  · rfl

/-- A run that failed at a source has updated just those in front of it. -/
theorem revises_of_error_about {done rest : List Source} {failing : Source} {error : RunError}
    (collected : files.sources processor.exclusions root = done ++ failing :: rest)
    (failed : (processor.run root files).outcome = .error error)
    (about : error.file? = some failing.path) :
    files.sourceFiles processor.exclusions root = .ok ((done ++ failing :: rest).map (·.path)) ∧
      processor.Revises files (processor.run root files).files done := by
  cases found : files.sourceFiles processor.exclusions root with
  | error walkError =>
    rw [(run_of_walk_error found).2] at failed
    cases failed
    cases about
  | ok paths =>
    refine ⟨by rw [← collected, FileSystem.map_path_sources found], ?_⟩
    rcases run_cases found with ⟨-, outcome, -⟩ |
      ⟨before, culprit, after, other, split, -, -, fails, outcome, revises⟩
    · rw [outcome] at failed
      cases failed
    · cases outcome.symm.trans failed
      -- The error names one path, and no other source has it.
      have apart := files.nodup_path_sources processor.exclusions root
      have same : failing = culprit := by
        refine List.inj_on_of_nodup_map apart ?_ ?_ (Option.some.inj (about.symm.trans fails.file?_eq))
        · simp [collected]
        · simp [split]
      subst same
      have once : failing ∉ before ∧ failing ∉ after := by
        have distinct := List.Nodup.of_map _ apart
        rw [split, List.nodup_append, List.nodup_cons] at distinct
        exact ⟨fun member => distinct.2.2 _ member _ List.mem_cons_self rfl, distinct.2.1.1⟩
      have front := (List.append_cons_inj_of_notMem once.1 once.2).1 (split.symm.trans collected)
      rw [← front.1]
      exact revises

/-- A run that failed is resumed by running again once the file at fault and those behind it are
mended: it ends as a run does that meets the mended tree first. -/
theorem resumes_after_failure {notice : Notice} {styles : StyleTable} {exclusions : Exclusions}
    (accepted : make notice styles exclusions = .ok processor) (safe : processor.WritesLineSafe)
    {done rest : List Source} {failing : Source}
    (collected : files.sources exclusions root = done ++ failing :: rest) {error : RunError}
    (failed : (processor.run root files).outcome = .error error)
    (about : error.file? = some failing.path) {edit : List FileName → ByteArray → ByteArray}
    (mends : ∀ source ∈ done, ∀ content, edit source.location content = content) :
    let resumed := processor.run root ((processor.run root files).files.mapFiles edit)
    let fresh := processor.run root (files.mapFiles edit)
    files.sourceFiles exclusions root = .ok ((done ++ failing :: rest).map (·.path)) ∧
      resumed.outcome = fresh.outcome ∧
      ∀ summary, fresh.outcome = .ok summary → resumed.files = fresh.files := by
  have sameExclusions : processor.exclusions = exclusions := by
    obtain ⟨-, rfl⟩ := make_eq_ok.1 accepted
    rfl
  subst sameExclusions
  obtain ⟨collects, revises⟩ := revises_of_error_about collected failed about
  intro resumed fresh
  have held : ∀ source ∈ done, files.Holds source := by
    intro source member
    apply FileSystem.holds_of_mem_sources
    rw [collected]
    exact List.mem_append_left _ member
  have agree := (revises.agree (recovers_of_make accepted safe) held).edit mends
  -- The mended tree has the sources in front of the failing one where they were.
  have matching : fresh.Matches resumed := by
    apply Agree.run
    apply agree.of_places
    intro source member
    rw [FileSystem.sources_mapFiles, collected]
    exact ⟨source.mapContent edit,
      List.mem_map_of_mem (List.mem_append_left _ member), rfl, rfl⟩
  exact ⟨collects, matching.outcome, matching.files⟩

/-- The file that is no text is replaced by a text. -/
theorem resumes_after_binary :
    let text : Source := ⟨⟨"./a.c"⟩, [⟨"a.c", by decide⟩], "x\n".toUTF8⟩
    let binary : Source := ⟨⟨"./b.c"⟩, [⟨"b.c", by decide⟩], ⟨#[0xff]⟩⟩
    let mend := overwrite binary.location "y\n".toUTF8
    let mended : FileSystem := ⟨.leaf ⟨"a.c", by decide⟩ (.file "x\n".toUTF8)
      (.leaf ⟨"b.c", by decide⟩ (.file "y\n".toUTF8) .nil), [], by decide, ⟨_, rfl⟩⟩
    let resumed := standard.run ⟨"."⟩ ((standard.run ⟨"."⟩ textAndBinary).files.mapFiles mend)
    textAndBinary.sources .default ⟨"."⟩ = [text] ++ binary :: [] ∧
      (standard.run ⟨"."⟩ textAndBinary).outcome = .error (.reading binary.path .notText) ∧
      (∀ source ∈ [text], ∀ content, mend source.location content = content) ∧
      textAndBinary.mapFiles mend = mended ∧
      resumed.outcome = .ok ((Summary.empty.record "C-style").record "C-style") ∧
      resumed.files = (standard.run ⟨"."⟩ mended).files := by
  intro text binary mend mended resumed
  have accepted : make .default .builtin .default = .ok standard := by decide
  have safe : standard.WritesLineSafe := by decide
  have collected : textAndBinary.sources .default ⟨"."⟩ = [text] ++ binary :: [] := by rfl
  have failed : (standard.run ⟨"."⟩ textAndBinary).outcome =
      .error (.reading binary.path .notText) := by rfl
  have mends : ∀ source ∈ [text], ∀ content, mend source.location content = content := by
    intro source member content
    rw [List.mem_singleton.1 member]
    exact if_neg (by decide)
  have same : textAndBinary.mapFiles mend = mended := by rfl
  have both := resumes_after_failure accepted safe collected failed rfl mends
  simp only [same] at both
  obtain ⟨-, outcome, leaves⟩ := both
  have fresh : (standard.run ⟨"."⟩ mended).outcome =
      .ok ((Summary.empty.record "C-style").record "C-style") := by rfl
  exact ⟨collected, failed, mends, same, outcome.trans fresh, leaves _ fresh⟩

end Processor

end CopyrightHeader

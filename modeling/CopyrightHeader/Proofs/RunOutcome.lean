import CopyrightHeader.Proofs.Revision

/-! The outcome of a run.

A run updates all files of its walk that have a style, or those in front of the first that cannot be
updated; it fails there, and with the walk. Nothing else in the tree is touched.
-/

set_option autoImplicit false

namespace CopyrightHeader.Processor

variable {processor : Processor} {root : Path} {files : FileSystem}

theorem run_endsAs_updateAll {paths : List Path}
    (found : files.sourceFiles processor.exclusions root = .ok paths) :
    (processor.run root files).EndsAs (processor.updateAll paths files .empty) := by
  unfold run
  simp only [found]
  exact ⟨rfl, rfl⟩

theorem run_of_walk_error {error : WalkError}
    (failed : files.sourceFiles processor.exclusions root = .error error) :
    (processor.run root files).files = files ∧
      (processor.run root files).outcome = .error (.walking root error) := by
  constructor
  · simp only [run, failed]
  · simp only [run, failed]

theorem updateAll_of_accepted {sources : List Source}
    (held : ∀ source ∈ sources, files.Holds source) (apart : (sources.map (·.location)).Nodup)
    (accepted : ∀ source ∈ sources, ¬ processor.Rejects source) (summary : Summary) :
    let run := processor.updateAll (sources.map (·.path)) files summary
    run.outcome = .ok ((sources.map (·.path)).foldl processor.tally summary) ∧
      processor.Revises files run.files sources := by
  obtain ⟨after, revises, ends⟩ := updateAll_append sources [] files summary held apart accepted
  rw [List.append_nil] at ends
  refine ⟨ends.outcome, ?_⟩
  rw [ends.files]
  exact revises

/-- A source stands at none of the places of those in front of it. -/
theorem location_notMem_of_nodup {done rest : List Source} {failing : Source}
    (apart : ((done ++ failing :: rest).map (·.location)).Nodup) :
    failing.location ∉ done.map (·.location) := by
  rw [List.map_append, List.nodup_append] at apart
  exact fun member => apart.2.2 _ member _ (List.mem_map_of_mem List.mem_cons_self) rfl

/-- The first source that is rejected ends the run: those in front of it are updated. -/
theorem updateAll_of_rejected {done rest : List Source} {failing : Source}
    (held : ∀ source ∈ done ++ failing :: rest, files.Holds source)
    (apart : ((done ++ failing :: rest).map (·.location)).Nodup)
    (accepted : ∀ source ∈ done, ¬ processor.Rejects source)
    (rejected : processor.Rejects failing) (summary : Summary) :
    let run := processor.updateAll ((done ++ failing :: rest).map (·.path)) files summary
    (∃ error, FailsAt failing.path error ∧ run.outcome = .error error) ∧
      processor.Revises files run.files done := by
  intro run
  have alone := location_notMem_of_nodup apart
  rw [List.map_append] at apart
  obtain ⟨apartDone, -, -⟩ := List.nodup_append.1 apart
  obtain ⟨after, revises, ends⟩ := updateAll_append done ((failing :: rest).map (·.path)) files summary
    (fun source member => held source (List.mem_append_left _ member)) apartDone accepted
  rw [← List.map_append] at ends
  -- What was updated in front of the failing source stands elsewhere.
  have still := revises.holds (held failing (List.mem_append_right _ List.mem_cons_self)) alone
  obtain ⟨style, styled, reason⟩ := rejected
  obtain ⟨error, fails, stops⟩ := updateFile_of_rejects still styled ⟨style, styled, reason⟩
  obtain ⟨sameFiles, outcome⟩ := updateAll_cons_of_error styled stops (rest.map (·.path))
    ((done.map (·.path)).foldl processor.tally summary)
  refine ⟨⟨error, fails, ends.outcome.trans outcome⟩, ?_⟩
  rw [show run.files = after from ends.files.trans sameFiles]
  exact revises

/-- A run whose walk does not fail updates all sources, or those in front of the first that is
rejected. -/
theorem run_cases {paths : List Path}
    (found : files.sourceFiles processor.exclusions root = .ok paths) :
    let run := processor.run root files
    let sources := files.sources processor.exclusions root
    ((∀ source ∈ sources, ¬ processor.Rejects source) ∧
        run.outcome = .ok (paths.foldl processor.tally .empty) ∧
        processor.Revises files run.files sources) ∨
      ∃ done failing rest error, sources = done ++ failing :: rest ∧
        (∀ source ∈ done, ¬ processor.Rejects source) ∧ processor.Rejects failing ∧
        FailsAt failing.path error ∧ run.outcome = .error error ∧
        processor.Revises files run.files done := by
  intro run sources
  have ends : run.EndsAs (processor.updateAll paths files .empty) := run_endsAs_updateAll found
  have held : ∀ source ∈ sources, files.Holds source := fun _ => FileSystem.holds_of_mem_sources
  have apart : (sources.map (·.location)).Nodup := files.nodup_sources _ root
  have collected : sources.map (·.path) = paths := FileSystem.map_path_sources found
  rw [← collected] at ends
  by_cases stopped : ∃ source ∈ sources, processor.Rejects source
  · classical
    obtain ⟨source, member, rejects⟩ := stopped
    obtain ⟨failing, done, rest, accepted, rejected, split, -⟩ :=
      List.exists_of_eraseP (p := fun source => processor.Rejects source) member
        (decide_eq_true rejects)
    simp only [decide_eq_true_eq] at accepted rejected
    rw [split] at held apart ends
    obtain ⟨⟨error, fails, outcome⟩, revises⟩ :=
      updateAll_of_rejected held apart accepted rejected .empty
    exact .inr ⟨done, failing, rest, error, split, accepted, rejected, fails,
      ends.outcome.trans outcome, ends.files ▸ revises⟩
  · have accepted : ∀ source ∈ sources, ¬ processor.Rejects source :=
      fun source member rejected => stopped ⟨source, member, rejected⟩
    obtain ⟨outcome, revises⟩ := updateAll_of_accepted held apart accepted .empty
    refine .inl ⟨accepted, ?_, ends.files ▸ revises⟩
    rw [← collected]
    exact ends.outcome.trans outcome

/-- A run whose walk fails leaves the tree alone. Otherwise the walk finds files that stand at
different places. If none of them is rejected, the run succeeds and all that have a style are
updated. If some is, the run fails at the first of these, and just the files in front of it are
updated. -/
theorem run_updates_up_to_rejected (processor : Processor) (root : Path) (files : FileSystem) :
    let run := processor.run root files
    (∀ error, files.sourceFiles processor.exclusions root = .error error →
      run.files = files ∧ run.outcome = .error (.walking root error)) ∧
    ∀ paths, files.sourceFiles processor.exclusions root = .ok paths →
      ∃ sources : List Source, sources.map (·.path) = paths ∧
        (sources.map (·.location)).Nodup ∧ (∀ source ∈ sources, files.Holds source) ∧
        ((∀ source ∈ sources, ¬ processor.Rejects source) →
          (∃ summary, run.outcome = .ok summary) ∧ processor.Revises files run.files sources) ∧
        ∀ done failing rest, sources = done ++ failing :: rest →
          (∀ source ∈ done, ¬ processor.Rejects source) → processor.Rejects failing →
          (∃ error, FailsAt failing.path error ∧ run.outcome = .error error) ∧
            processor.Revises files run.files done := by
  intro run
  refine ⟨fun error failed => run_of_walk_error failed, fun paths found => ?_⟩
  have ends : run.EndsAs (processor.updateAll paths files .empty) := run_endsAs_updateAll found
  obtain ⟨sources, rfl, apart, held⟩ := FileSystem.exists_sources found
  refine ⟨sources, rfl, apart, held, fun accepted => ?_, ?_⟩
  · obtain ⟨outcome, revises⟩ := updateAll_of_accepted held apart accepted .empty
    refine ⟨⟨_, ends.outcome.trans outcome⟩, ?_⟩
    rw [ends.files]
    exact revises
  · rintro done failing rest rfl accepted rejected
    obtain ⟨⟨error, fails, outcome⟩, revises⟩ :=
      updateAll_of_rejected held apart accepted rejected .empty
    refine ⟨⟨error, fails, ends.outcome.trans outcome⟩, ?_⟩
    rw [ends.files]
    exact revises

def standard : Processor := ⟨.default, .builtin, .default⟩

/-- A text, and a file that is no text, both with a style. -/
def textAndBinary : FileSystem where
  top := .leaf ⟨"a.c", by decide⟩ (.file "x\n".toUTF8)
    (.leaf ⟨"b.c", by decide⟩ (.file ⟨#[0xff]⟩) .nil)
  workingDirectory := []
  ordered := by decide
  startsInFolder := ⟨_, rfl⟩

theorem run_stops_at_binary :
    textAndBinary.sourceFiles standard.exclusions ⟨"."⟩ = .ok [⟨"./a.c"⟩, ⟨"./b.c"⟩] ∧
      (∃ error, FailsAt ⟨"./b.c"⟩ error ∧
        (standard.run ⟨"."⟩ textAndBinary).outcome = .error error) ∧
      (standard.run ⟨"."⟩ textAndBinary).files.top.nodeAt [⟨"a.c", by decide⟩] =
        some (.leaf (.file (Header.render .c .default ++ "x\n").toUTF8)) := by
  have walks : textAndBinary.sourceFiles standard.exclusions ⟨"."⟩ =
      .ok [⟨"./a.c"⟩, ⟨"./b.c"⟩] := rfl
  obtain ⟨sources, paths, -, held, -, stops⟩ :=
    (run_updates_up_to_rejected standard ⟨"."⟩ textAndBinary).2 _ walks
  obtain ⟨text, _, rfl, textPath, paths⟩ := List.map_eq_cons_iff.1 paths
  obtain ⟨binary, _, rfl, binaryPath, paths⟩ := List.map_eq_cons_iff.1 paths
  cases List.map_eq_nil_iff.1 paths
  -- The paths lead to just one file each.
  have textHeld := (held text List.mem_cons_self).2 (by rw [textPath]; rfl) .use
  have binaryHeld :=
    (held binary (List.mem_cons_of_mem _ List.mem_cons_self)).2 (by rw [binaryPath]; rfl) .use
  have textLeads : textAndBinary.resolve .use ⟨"./a.c"⟩ =
      .ok (.node [⟨"a.c", by decide⟩] (.leaf (.file "x\n".toUTF8))) := rfl
  have binaryLeads : textAndBinary.resolve .use ⟨"./b.c"⟩ =
      .ok (.node [⟨"b.c", by decide⟩] (.leaf (.file ⟨#[0xff]⟩))) := rfl
  rw [textPath, textLeads] at textHeld
  rw [binaryPath, binaryLeads] at binaryHeld
  simp only [Except.ok.injEq, Place.node.injEq, Node.leaf.injEq, Leaf.file.injEq]
    at textHeld binaryHeld
  have decodes : String.fromUTF8? text.content = some "x\n" := by
    rw [← textHeld.2]
    decide +kernel
  have closed : Header.strip .c "x\n" = .ok "x\n" := rfl
  have textStyled : standard.styleOf text.path = some .c := by
    rw [textPath]
    rfl
  have accepted : ¬ standard.Rejects text := by
    rintro ⟨style, styled, reason⟩
    cases styled.symm.trans textStyled
    rcases reason with long | undecodable | ⟨other, fault, decoded, unclosed⟩
    · rw [textPath] at long
      cases long
    · cases decodes.symm.trans undecodable
    · cases decodes.symm.trans decoded
      cases closed.symm.trans unclosed
  have rejected : standard.Rejects binary := by
    refine ⟨.c, ?_, .inr (.inl ?_)⟩
    · rw [binaryPath]
      rfl
    · rw [← binaryHeld.2]
      decide +kernel
  obtain ⟨fails, revises⟩ := stops [text] binary [] rfl (by simpa using accepted) rejected
  obtain ⟨decoded, body, sameText, stripped, written⟩ :=
    revises.updated text List.mem_cons_self .c textStyled
  cases decodes.symm.trans sameText
  cases closed.symm.trans stripped
  rw [binaryPath] at fails
  rw [← textHeld.1] at written
  exact ⟨walks, fails, written⟩

/-! ## A root that leaves no room for a name -/

/-- The working directory, with so many separators behind it. -/
def farRoot (separators : Nat) : Path := ⟨String.ofList ('.' :: List.replicate separators '/')⟩

def oneFile (name : FileName) (content : ByteArray) : FileSystem where
  top := .leaf name (.file content) .nil
  workingDirectory := []
  ordered := ⟨by simp [Directory.names], trivial⟩
  startsInFolder := ⟨_, rfl⟩

theorem utf8ByteSize_farRoot (separators : Nat) :
    (farRoot separators).text.utf8ByteSize = separators + 1 := by
  have slashes : (String.ofList (List.replicate separators '/')).utf8ByteSize = separators := by
    induction separators with
    | zero => rfl
    | succ separators ih =>
      rw [List.replicate_succ, String.ofList_cons, String.utf8ByteSize_append, ih]
      exact Nat.add_comm 1 separators
  rw [farRoot, String.ofList_cons, String.utf8ByteSize_append, slashes]
  exact Nat.add_comm 1 separators

theorem text_farRoot_ne_empty (separators : Nat) : (farRoot separators).text ≠ "" := by
  intro empty
  have size := utf8ByteSize_farRoot separators
  simp [empty] at size

theorem names_farRoot (separators : Nat) : (farRoot separators).names = [.stay] := by
  have parts : Path.splitSeparators ('.' :: List.replicate separators '/') =
      ['.'] :: List.replicate separators [] := by
    induction separators with
    | zero => rfl
    | succ separators ih =>
      rw [List.replicate_succ', List.replicate_succ', ← List.cons_append,
        Path.splitSeparators_append, ih]
      rfl
  simp [Path.names, farRoot, parts, Step.ofNames, Step.ofPart]

theorem resolve_farRoot {separators : Nat} (short : separators < Path.limit)
    (atTop : files.workingDirectory = []) (purpose : Purpose) :
    files.resolve purpose (farRoot separators) = .ok (.node [] (.folder files.top)) := by
  refine FileSystem.resolve_eq_ok.2 ⟨text_farRoot_ne_empty separators, ?_, ?_, ?_⟩
  · simp [farRoot]
  · rw [Path.isTooLong, utf8ByteSize_farRoot]
    exact decide_eq_false (Nat.not_lt.2 short)
  · obtain ⟨final, shape, steps⟩ := (farRoot separators).steps_eq
    have relative : (farRoot separators).isAbsolute = false := by simp [Path.isAbsolute, farRoot]
    rw [steps, names_farRoot, relative, atTop]
    rcases shape with rfl | rfl
    · rfl
    · rfl

theorem sourceFiles_farRoot {separators : Nat} (short : separators < Path.limit) (name : FileName)
    (content : ByteArray) (exclusions : Exclusions) :
    (oneFile name content).sourceFiles exclusions (farRoot separators) =
      .ok [(farRoot separators).join name.text] := by
  have walks : (oneFile name content).walk exclusions (farRoot separators) =
      [.file ((farRoot separators).join name.text)] := by
    have leads (purpose : Purpose) : (oneFile name content).resolve purpose (farRoot separators) =
        .ok (.node [] (.folder (.leaf name (.file content) .nil))) :=
      resolve_farRoot short rfl purpose
    simp only [FileSystem.walk, leads]
    rfl
  rw [FileSystem.sourceFiles, walks]
  rfl

theorem isTooLong_join_farRoot {separators : Nat} (name : FileName)
    (exceeds : Path.limit < separators + 2 + name.text.utf8ByteSize) :
    ((farRoot (separators + 1)).join name.text).isTooLong := by
  have final : (farRoot (separators + 1)).text.toList.getLast? = some '/' := by
    rw [farRoot, String.toList_ofList, List.replicate_succ', ← List.cons_append, List.getLast?_concat]
  have relative : name.text.toList.head? ≠ some '/' := fun first =>
    name.isFileName.2.2.2.1 (List.mem_of_head? first)
  rw [Path.join, if_neg relative, if_pos (.inr final), Path.isTooLong, String.utf8ByteSize_append,
    utf8ByteSize_farRoot]
  exact decide_eq_true exceeds

theorem resolve_join_farRoot {separators : Nat} {name : FileName}
    (exceeds : Path.limit < separators + 2 + name.text.utf8ByteSize) (files : FileSystem)
    (purpose : Purpose) :
    files.resolve purpose ((farRoot (separators + 1)).join name.text) = .error .nameTooLong := by
  have notEmpty := text_farRoot_ne_empty (separators + 1)
  have free : '\x00' ∉ (farRoot (separators + 1)).text.toList := by simp [farRoot]
  rw [FileSystem.resolve, if_neg (Path.text_join_ne_empty notEmpty name),
    if_neg (Path.nul_not_mem_join notEmpty name free), if_pos (isTooLong_join_farRoot name exceeds)]

/-- The walk still finds the file, but it cannot be read. -/
theorem run_farRoot {separators : Nat} (short : separators + 1 < Path.limit) {name : FileName}
    (exceeds : Path.limit < separators + 2 + name.text.utf8ByteSize) {style : CommentStyle}
    (resolved : processor.styles.resolve name.text = some style) (content : ByteArray) :
    let path := (farRoot (separators + 1)).join name.text
    processor.styleOf path = some style ∧
      (processor.run (farRoot (separators + 1)) (oneFile name content)).outcome =
        .error (.reading path .nameTooLong) := by
  intro path
  have notEmpty := text_farRoot_ne_empty (separators + 1)
  have styled : processor.styleOf path = some style := by
    rw [styleOf, Path.fileName_join notEmpty name]
    exact resolved
  have leads : (oneFile name content).resolve .use path = .error .nameTooLong :=
    resolve_join_farRoot exceeds _ .use
  have fails : processor.updateFile style path (oneFile name content) =
      (oneFile name content, .error (.reading path .nameTooLong)) := by
    simp only [updateFile, FileSystem.readText, FileSystem.read, leads]
  have ends := run_endsAs_updateAll (sourceFiles_farRoot short name content processor.exclusions)
  have stops := updateAll_cons_of_error styled fails [] .empty
  exact ⟨styled, ends.outcome.trans stops.2⟩

/-- A file can be a text without a header and still end a run. -/
theorem run_fails_at_long_path :
    let name : FileName := ⟨"a_source_file_whose_name_does_not_fit_behind_a_long_root.c", by decide⟩
    let files := oneFile name "x\n".toUTF8
    let root := farRoot 4059
    files.sourceFiles standard.exclusions root = .ok [root.join name.text] ∧
      standard.styleOf (root.join name.text) = some .c ∧
      String.fromUTF8? "x\n".toUTF8 = some "x\n" ∧ Header.strip .c "x\n" = .ok "x\n" ∧
      (standard.run root files).outcome = .error (.reading (root.join name.text) .nameTooLong) := by
  intro name files root
  have short : 4058 + 1 < Path.limit := by decide
  have exceeds : Path.limit < 4058 + 2 + name.text.utf8ByteSize := by decide
  have resolved : standard.styles.resolve name.text = some .c := by decide
  have decodes : String.fromUTF8? "x\n".toUTF8 = some "x\n" := by decide +kernel
  have both := run_farRoot short exceeds resolved "x\n".toUTF8
  exact ⟨sourceFiles_farRoot short name _ _, both.1, decodes, rfl, both.2⟩

end CopyrightHeader.Processor

import CopyrightHeader.Proofs.RunOutcome

/-! A run as a plan.

What an update makes of a file follows from its path and what it says. So all that a run writes, and
how it ends, follows from the files of its walk before anything is touched.
-/

set_option autoImplicit false

namespace CopyrightHeader

/-- The contents that are to be written, each with its place, and the outcome in the end. -/
structure Plan where
  writes : List (List FileName × ByteArray)
  outcome : Except RunError Summary

namespace Plan

/-- The change that writing comes to. -/
def change (plan : Plan) (location : List FileName) (content : ByteArray) : ByteArray :=
  plan.writes.foldl (fun content write => overwrite write.1 write.2 location content) content

theorem change_eq_of_writes {plan other : Plan} (same : plan.writes = other.writes) :
    plan.change = other.change := by
  funext location content
  rw [change, change, same]

theorem change_of_notMem {plan : Plan} {location : List FileName}
    (elsewhere : ∀ write ∈ plan.writes, write.1 ≠ location) (content : ByteArray) :
    plan.change location content = content := by
  obtain ⟨writes, outcome⟩ := plan
  unfold change
  induction writes with
  | nil => rfl
  | cons write writes ih =>
    rw [List.foldl_cons, overwrite, if_neg (Ne.symm (elsewhere write List.mem_cons_self))]
    exact ih fun other member => elsewhere other (List.mem_cons_of_mem _ member)

theorem mapFiles_change_of_no_writes {plan : Plan} (none : plan.writes = []) (files : FileSystem) :
    files.mapFiles plan.change = files := by
  have keeps : plan.change = fun _ content => content := by
    funext location content
    rw [change, none, List.foldl_nil]
  rw [keeps, files.mapFiles_keep]

theorem mapFiles_change_cons {plan rest : Plan} {location : List FileName} {content : ByteArray}
    (first : plan.writes = (location, content) :: rest.writes) (files : FileSystem) :
    files.mapFiles plan.change = (files.mapFiles (overwrite location content)).mapFiles rest.change := by
  rw [FileSystem.mapFiles_mapFiles]
  congr 1
  funext other old
  rw [change, first, List.foldl_cons]
  rfl

end Plan

namespace FileSystem

/-- No path of a walk holds the character that no path may hold. -/
theorem nul_notMem_path_of_mem_sources {files : FileSystem} {exclusions : Exclusions} {root : Path}
    {source : Source} (member : source ∈ files.sources exclusions root) :
    '\x00' ∉ source.path.text.toList := by
  unfold sources at member
  split at member
  · next looks =>
    rw [List.mem_singleton.1 member]
    exact (resolve_eq_ok.1 looks).2.1
  · next leads _ =>
    obtain ⟨below, -, rfl⟩ := List.mem_map.1 member
    exact Path.nul_not_mem_below (resolve_eq_ok.1 leads).1 (resolve_eq_ok.1 leads).2.1 below
  · cases member

theorem resolve_of_isTooLong {path : Path} (long : path.isTooLong)
    (free : '\x00' ∉ path.text.toList) (files : FileSystem) (purpose : Purpose) :
    files.resolve purpose path = .error .nameTooLong := by
  have notEmpty : path.text ≠ "" := by
    intro empty
    simp [Path.isTooLong, empty] at long
  rw [resolve, if_neg notEmpty, if_neg free, if_pos long]

end FileSystem

namespace Processor

variable {processor : Processor} {style : CommentStyle} {source : Source} {files : FileSystem}

/-- What an update makes of the content of a source. -/
def revise (processor : Processor) (style : CommentStyle) (source : Source) :
    Except RunError ByteArray :=
  if source.path.isTooLong then .error (.reading source.path .nameTooLong)
  else
    match String.fromUTF8? source.content with
    | none => .error (.reading source.path .notText)
    | some text =>
      match Header.update style processor.notice text with
      | .error fault => .error (.header source.path fault)
      | .ok output => .ok output.toUTF8

/-- An update does to the file what is made of the source. -/
theorem updateFile_eq_revise (held : files.Holds source) (free : '\x00' ∉ source.path.text.toList) :
    processor.updateFile style source.path files =
      match processor.revise style source with
      | .ok content => (files.mapFiles (overwrite source.location content), .ok ())
      | .error error => (files, .error error) := by
  rw [revise]
  cases long : source.path.isTooLong with
  | true =>
    have leads := FileSystem.resolve_of_isTooLong long free files .use
    exact updateFile_of_unreadable (by rw [FileSystem.readText, FileSystem.read, leads])
  | false =>
    cases decoded : String.fromUTF8? source.content with
    | none => exact updateFile_of_unreadable (held.readText_of_undecodable long decoded)
    | some text =>
      simp only [updateFile, held.readText_eq long decoded]
      cases Header.update style processor.notice text with
      | error fault => rfl
      | ok output =>
        simp only [held.writeText_eq long]
        rfl

/-- What a run makes of the sources, from the first to the one that it fails at. -/
def plan (processor : Processor) : List Source → Summary → Plan
  | [], summary => ⟨[], .ok summary⟩
  | source :: sources, summary =>
    match processor.styleOf source.path with
    | none => processor.plan sources (processor.tally summary source.path)
    | some style =>
      match processor.revise style source with
      | .error error => ⟨[], .error error⟩
      | .ok content =>
        let rest := processor.plan sources (processor.tally summary source.path)
        { rest with writes := (source.location, content) :: rest.writes }

section

variable {sources : List Source} {summary : Summary}

theorem plan_cons_of_unstyled (unstyled : processor.styleOf source.path = none) :
    processor.plan (source :: sources) summary =
      processor.plan sources (processor.tally summary source.path) := by
  simp only [plan, unstyled]

theorem plan_cons_of_error (styled : processor.styleOf source.path = some style) {error : RunError}
    (fails : processor.revise style source = .error error) :
    processor.plan (source :: sources) summary = ⟨[], .error error⟩ := by
  simp only [plan, styled, fails]

theorem plan_cons_of_ok (styled : processor.styleOf source.path = some style) {content : ByteArray}
    (revised : processor.revise style source = .ok content) :
    processor.plan (source :: sources) summary =
      { processor.plan sources (processor.tally summary source.path) with
        writes := (source.location, content) ::
          (processor.plan sources (processor.tally summary source.path)).writes } := by
  simp only [plan, styled, revised]

/-- Only sources with a style are written to. -/
theorem exists_source_of_mem_writes {write : List FileName × ByteArray}
    (member : write ∈ (processor.plan sources summary).writes) :
    ∃ source ∈ sources, source.location = write.1 ∧
      ∃ style, processor.styleOf source.path = some style := by
  induction sources generalizing summary with
  | nil => cases member
  | cons source sources ih =>
    have behind {summary : Summary} (member : write ∈ (processor.plan sources summary).writes) :
        ∃ other ∈ source :: sources, other.location = write.1 ∧
          ∃ style, processor.styleOf other.path = some style := by
      obtain ⟨other, inside, rest⟩ := ih member
      exact ⟨other, List.mem_cons_of_mem _ inside, rest⟩
    cases styled : processor.styleOf source.path with
    | none =>
      rw [plan_cons_of_unstyled styled] at member
      exact behind member
    | some style =>
      cases revised : processor.revise style source with
      | error error =>
        rw [plan_cons_of_error styled revised] at member
        cases member
      | ok content =>
        rw [plan_cons_of_ok styled revised] at member
        rcases List.mem_cons.1 member with rfl | member
        · exact ⟨source, List.mem_cons_self, rfl, style, styled⟩
        · exact behind member

end

/-- The sources are dealt with as planned. -/
theorem updateAll_eq_plan {sources : List Source} (held : ∀ source ∈ sources, files.Holds source)
    (apart : (sources.map (·.location)).Nodup)
    (free : ∀ source ∈ sources, '\x00' ∉ source.path.text.toList) (summary : Summary) :
    let run := processor.updateAll (sources.map (·.path)) files summary
    let plan := processor.plan sources summary
    run.files = files.mapFiles plan.change ∧ run.outcome = plan.outcome := by
  induction sources generalizing files summary with
  | nil => exact ⟨(Plan.mapFiles_change_of_no_writes rfl files).symm, rfl⟩
  | cons source sources ih =>
    obtain ⟨alone, apart⟩ := List.nodup_cons.1 apart
    have heldFirst := held source List.mem_cons_self
    have heldRest := fun other member => held other (List.mem_cons_of_mem source member)
    have freeRest := fun other member => free other (List.mem_cons_of_mem source member)
    cases styled : processor.styleOf source.path with
    | none =>
      obtain ⟨leaves, outcome⟩ := ih heldRest apart freeRest (processor.tally summary source.path)
      have ends := updateAll_cons_of_unstyled styled (sources.map (·.path)) files summary
      rw [plan_cons_of_unstyled styled]
      exact ⟨ends.files.trans leaves, ends.outcome.trans outcome⟩
    | some style =>
      have updates : processor.updateFile style source.path files = _ :=
        updateFile_eq_revise heldFirst (free source List.mem_cons_self)
      cases revised : processor.revise style source with
      | error error =>
        rw [revised] at updates
        obtain ⟨stays, outcome⟩ := updateAll_cons_of_error styled updates (sources.map (·.path)) summary
        rw [plan_cons_of_error styled revised]
        exact ⟨stays.trans (Plan.mapFiles_change_of_no_writes rfl files).symm, outcome⟩
      | ok content =>
        rw [revised] at updates
        -- The others stand elsewhere, so they are still held.
        have stillHeld : ∀ other ∈ sources,
            (files.mapFiles (overwrite source.location content)).Holds other := by
          intro other member
          refine (heldRest other member).overwrite (fun same => ?_) _
          exact alone (List.mem_map.2 ⟨other, member, same⟩)
        obtain ⟨leaves, outcome⟩ := ih stillHeld apart freeRest (processor.tally summary source.path)
        have ends := updateAll_cons_of_ok styled updates (sources.map (·.path)) summary
        rw [plan_cons_of_ok styled revised]
        exact ⟨(ends.files.trans leaves).trans (Plan.mapFiles_change_cons rfl files).symm,
          ends.outcome.trans outcome⟩

/-- A run whose walk does not fail does as planned for its sources. -/
theorem run_eq_plan {root : Path} {paths : List Path}
    (found : files.sourceFiles processor.exclusions root = .ok paths) :
    let plan := processor.plan (files.sources processor.exclusions root) .empty
    (processor.run root files).files = files.mapFiles plan.change ∧
      (processor.run root files).outcome = plan.outcome := by
  have ends := run_endsAs_updateAll found
  rw [← FileSystem.map_path_sources found] at ends
  obtain ⟨leaves, outcome⟩ := updateAll_eq_plan (fun _ => FileSystem.holds_of_mem_sources)
    (files.nodup_sources processor.exclusions root)
    (fun _ => FileSystem.nul_notMem_path_of_mem_sources) .empty
  exact ⟨ends.files.trans leaves, ends.outcome.trans outcome⟩

end Processor

end CopyrightHeader

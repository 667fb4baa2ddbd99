import CopyrightHeader.Processor.Run
import CopyrightHeader.Proofs.Sources

/-! What a processor does to the files of a walk, one after the other.

Every update overwrites the place of its own file. The places are apart, so what was found by the
walk is still found, with the content it had, when its turn comes.
-/

set_option autoImplicit false

namespace CopyrightHeader

namespace FileSystem

theorem Holds.mapContent {files : FileSystem} {source : Source} (held : files.Holds source)
    (change : List FileName → ByteArray → ByteArray) :
    (files.mapFiles change).Holds (source.mapContent change) := by
  obtain ⟨here, leads⟩ := held
  constructor
  · exact nodeAt_mapFiles_eq_file.2 ⟨source.content, here, rfl⟩
  · intro short purpose
    have changed := resolve_mapFiles change files purpose source.path
    rw [leads short purpose] at changed
    exact changed

theorem Holds.mapFiles {files : FileSystem} {source : Source} (held : files.Holds source)
    (change : List FileName → ByteArray → ByteArray)
    (keeps : change source.location source.content = source.content) :
    (files.mapFiles change).Holds source := by
  have changed := held.mapContent change
  rwa [Source.mapContent, keeps] at changed

theorem Holds.overwrite {files : FileSystem} {source : Source} (held : files.Holds source)
    {location : List FileName} (apart : source.location ≠ location) (content : ByteArray) :
    (files.mapFiles (overwrite location content)).Holds source :=
  held.mapFiles _ (if_neg apart)

/-! ## Files that a path leads to -/

section

variable {files : FileSystem} {path : Path} {location : List FileName} {content : ByteArray}
  (leads : files.resolve .use path = .ok (.node location (.leaf (.file content))))

include leads

theorem readText_of_file {text : String} (decoded : String.fromUTF8? content = some text) :
    files.readText path = .ok text := by
  simp only [readText, read, leads, decoded]

theorem readText_of_undecodable (undecodable : String.fromUTF8? content = none) :
    files.readText path = .error .notText := by
  simp only [readText, read, leads, undecodable]

/-- What can be read is overwritten in its place. -/
theorem writeText_of_file (text : String) :
    files.writeText path text = .ok (files.mapFiles (overwrite location text.toUTF8)) := by
  have creates : files.resolve .create path = .ok (.node location (.leaf (.file content))) :=
    resolve_file leads nofun
  rw [writeText, write, creates]
  exact congrArg Except.ok (putLeaf_eq_mapFiles text.toUTF8 (nodeAt_of_resolve leads))

end

theorem Holds.readText_eq {files : FileSystem} {source : Source} (held : files.Holds source)
    (short : source.path.isTooLong = false) {text : String}
    (decoded : String.fromUTF8? source.content = some text) :
    files.readText source.path = .ok text :=
  readText_of_file (held.2 short .use) decoded

theorem Holds.readText_of_undecodable {files : FileSystem} {source : Source}
    (held : files.Holds source) (short : source.path.isTooLong = false)
    (undecodable : String.fromUTF8? source.content = none) :
    files.readText source.path = .error .notText :=
  FileSystem.readText_of_undecodable (held.2 short .use) undecodable

theorem Holds.writeText_eq {files : FileSystem} {source : Source} (held : files.Holds source)
    (short : source.path.isTooLong = false) (text : String) :
    files.writeText source.path text =
      .ok (files.mapFiles (CopyrightHeader.overwrite source.location text.toUTF8)) :=
  writeText_of_file (held.2 short .use) text

theorem readText_of_isTooLong {path : Path} (long : path.isTooLong) (files : FileSystem) :
    ∃ error, files.readText path = .error error := by
  obtain ⟨error, leads⟩ := exists_error_of_isTooLong long files .use
  exact ⟨error, by rw [readText, read, leads]⟩

end FileSystem

/-- Two runs that leave the same tree with the same outcome, whatever they reported on the way. -/
structure Run.EndsAs (first second : Run) : Prop where
  files : first.files = second.files
  outcome : first.outcome = second.outcome

theorem Run.EndsAs.trans {first second third : Run} (front : first.EndsAs second)
    (back : second.EndsAs third) : first.EndsAs third :=
  ⟨front.files.trans back.files, front.outcome.trans back.outcome⟩

namespace Processor

/-- The source has a style but cannot be updated: its path is too long to be used, or it is no
text, or it opens a header that it never closes. -/
def Rejects (processor : Processor) (source : Source) : Prop :=
  ∃ style, processor.styleOf source.path = some style ∧
    (source.path.isTooLong ∨ String.fromUTF8? source.content = none ∨
      ∃ text fault, String.fromUTF8? source.content = some text ∧
        Header.strip style text = .error fault)

/-- The second tree is the first with the sources updated that have a style. -/
structure Revises (processor : Processor) (before after : FileSystem) (sources : List Source) :
    Prop where
  /-- Entries, links and folders are the same; at most contents differ. -/
  entries : ∃ change, after = before.mapFiles change
  /-- A source with a style has the new header above what was below the old one. -/
  updated : ∀ source ∈ sources, ∀ style, processor.styleOf source.path = some style →
    ∃ text body, String.fromUTF8? source.content = some text ∧
      Header.strip style text = .ok body ∧
      after.top.nodeAt source.location =
        some (.leaf (.file (Header.render style processor.notice ++ body).toUTF8))
  /-- All other files say what they said. -/
  others : ∀ location content,
    (∀ source ∈ sources, source.location = location → processor.styleOf source.path = none) →
    before.top.nodeAt location = some (.leaf (.file content)) →
    after.top.nodeAt location = some (.leaf (.file content))

variable {processor : Processor} {files : FileSystem} {source : Source} {style : CommentStyle}

theorem styleOf_of_styles {other : Processor} (styles : other.styles = processor.styles) :
    other.styleOf = processor.styleOf := by
  funext path
  rw [styleOf, styleOf, styles]

theorem Revises.refl (processor : Processor) (files : FileSystem) : processor.Revises files files [] where
  entries := ⟨fun _ content => content, files.mapFiles_keep.symm⟩
  updated := by simp
  others := fun _ _ _ found => found

/-! ## One file -/

/-- A source with a style is rejected, or it is a text with a closed header or none. -/
theorem exists_body_of_not_rejects (styled : processor.styleOf source.path = some style)
    (accepted : ¬ processor.Rejects source) :
    source.path.isTooLong = false ∧ ∃ text body, String.fromUTF8? source.content = some text ∧
      Header.strip style text = .ok body := by
  have short : source.path.isTooLong = false := by
    cases long : source.path.isTooLong with
    | false => rfl
    | true => exact absurd ⟨style, styled, .inl long⟩ accepted
  refine ⟨short, ?_⟩
  cases decoded : String.fromUTF8? source.content with
  | none => exact absurd ⟨style, styled, .inr (.inl decoded)⟩ accepted
  | some text =>
    cases stripped : Header.strip style text with
    | error fault => exact absurd ⟨style, styled, .inr (.inr ⟨text, fault, decoded, stripped⟩)⟩ accepted
    | ok body => exact ⟨text, body, rfl, stripped⟩

/-- To update a file that can be stripped is to overwrite its place. -/
theorem updateFile_of_file {path : Path} {location : List FileName} {content : ByteArray}
    (leads : files.resolve .use path = .ok (.node location (.leaf (.file content))))
    {text body : String} (decoded : String.fromUTF8? content = some text)
    (stripped : Header.strip style text = .ok body) :
    processor.updateFile style path files =
      (files.mapFiles (overwrite location (Header.render style processor.notice ++ body).toUTF8),
        .ok ()) := by
  have output : Header.update style processor.notice text =
      .ok (Header.render style processor.notice ++ body) :=
    Header.update_eq_ok.2 ⟨body, stripped, rfl⟩
  simp only [updateFile, FileSystem.readText_of_file leads decoded, output,
    FileSystem.writeText_of_file leads]

theorem updateFile_eq_ok (held : files.Holds source) (short : source.path.isTooLong = false)
    {text body : String} (decoded : String.fromUTF8? source.content = some text)
    (stripped : Header.strip style text = .ok body) :
    processor.updateFile style source.path files =
      (files.mapFiles (overwrite source.location
        (Header.render style processor.notice ++ body).toUTF8), .ok ()) :=
  updateFile_of_file (held.2 short .use) decoded stripped

theorem updateFile_of_unreadable {path : Path} {error : OsError}
    (unreadable : files.readText path = .error error) :
    processor.updateFile style path files = (files, .error (.reading path error)) := by
  simp only [updateFile, unreadable]

theorem updateFile_of_unclosed {path : Path} {text : String} {fault : Header.Unterminated}
    (readable : files.readText path = .ok text) (unclosed : Header.strip style text = .error fault) :
    processor.updateFile style path files = (files, .error (.header path fault)) := by
  have fails : Header.update style processor.notice text = .error fault := by
    rw [Header.update, unclosed]
    rfl
  simp only [updateFile, readable, fails]

/-- The two ways in which an update can fail that has not touched anything. -/
def FailsAt (path : Path) (error : RunError) : Prop :=
  (∃ cause, error = .reading path cause) ∨ (∃ fault, error = .header path fault)

/-- A source that is rejected stays as it is, and the error names it. -/
theorem updateFile_of_rejects (held : files.Holds source)
    (styled : processor.styleOf source.path = some style) (rejected : processor.Rejects source) :
    ∃ error, FailsAt source.path error ∧
      processor.updateFile style source.path files = (files, .error error) := by
  obtain ⟨other, found, reason⟩ := rejected
  have same : other = style := Option.some.inj (found.symm.trans styled)
  subst same
  -- A path that is too long fails for that reason, whatever the content.
  cases long : source.path.isTooLong with
  | true =>
    obtain ⟨cause, unreadable⟩ := FileSystem.readText_of_isTooLong long files
    exact ⟨_, .inl ⟨cause, rfl⟩, updateFile_of_unreadable unreadable⟩
  | false =>
    rcases reason with tooLong | undecodable | ⟨text, fault, decoded, unclosed⟩
    · simp [long] at tooLong
    · exact ⟨_, .inl ⟨.notText, rfl⟩,
        updateFile_of_unreadable (held.readText_of_undecodable long undecodable)⟩
    · exact ⟨_, .inr ⟨fault, rfl⟩, updateFile_of_unclosed (held.readText_eq long decoded) unclosed⟩

/-! ## File after file -/

/-- The counts after one more file. -/
def tally (processor : Processor) (summary : Summary) (path : Path) : Summary :=
  match path.fileName with
  | none => summary
  | some name =>
    match processor.styles.resolve name with
    | none => summary.skip
    | some style => summary.record style.name

theorem updateAll_cons_of_unstyled {path : Path} (unstyled : processor.styleOf path = none)
    (paths : List Path) (files : FileSystem) (summary : Summary) :
    (processor.updateAll (path :: paths) files summary).EndsAs
      (processor.updateAll paths files (processor.tally summary path)) := by
  rw [updateAll, tally]
  cases named : path.fileName with
  | none => exact ⟨rfl, rfl⟩
  | some name =>
    have unmatched : processor.styles.resolve name = none := by
      simpa only [styleOf, named, Option.bind_some] using unstyled
    simp only [unmatched]
    exact ⟨rfl, rfl⟩

theorem updateAll_cons_of_ok {path : Path} {after : FileSystem}
    (styled : processor.styleOf path = some style)
    (updates : processor.updateFile style path files = (after, .ok ()))
    (paths : List Path) (summary : Summary) :
    (processor.updateAll (path :: paths) files summary).EndsAs
      (processor.updateAll paths after (processor.tally summary path)) := by
  obtain ⟨name, named, resolved⟩ := Option.bind_eq_some_iff.1 styled
  rw [updateAll, tally]
  simp only [named, resolved, updates]
  exact ⟨rfl, rfl⟩

theorem updateAll_cons_of_error {path : Path} {after : FileSystem} {error : RunError}
    (styled : processor.styleOf path = some style)
    (fails : processor.updateFile style path files = (after, .error error))
    (paths : List Path) (summary : Summary) :
    (processor.updateAll (path :: paths) files summary).files = after ∧
      (processor.updateAll (path :: paths) files summary).outcome = .error error := by
  obtain ⟨name, named, resolved⟩ := Option.bind_eq_some_iff.1 styled
  constructor
  · simp only [updateAll, named, resolved, fails]
  · simp only [updateAll, named, resolved, fails]

namespace Revises

variable {before after : FileSystem} {sources : List Source}

theorem holds (revises : processor.Revises before after sources) (held : before.Holds source)
    (apart : source.location ∉ sources.map (·.location)) : after.Holds source := by
  obtain ⟨change, rfl⟩ := revises.entries
  have kept := revises.others source.location source.content
    (fun other member same => absurd (List.mem_map.2 ⟨other, member, same⟩) apart) held.1
  rw [FileSystem.nodeAt_mapFiles, held.1] at kept
  refine held.mapFiles change ?_
  simpa [Node.mapFiles] using kept

theorem skip (unstyled : processor.styleOf source.path = none)
    (revises : processor.Revises before after sources) :
    processor.Revises before after (source :: sources) where
  entries := revises.entries
  updated := by
    intro other member style styled
    rcases List.mem_cons.1 member with rfl | member
    · simp [unstyled] at styled
    · exact revises.updated other member style styled
  others := by
    intro location content untouched found
    exact revises.others location content
      (fun other member => untouched other (List.mem_cons_of_mem _ member)) found

theorem update (held : before.Holds source) (styled : processor.styleOf source.path = some style)
    {text body : String} (decoded : String.fromUTF8? source.content = some text)
    (stripped : Header.strip style text = .ok body)
    (apart : source.location ∉ sources.map (·.location))
    (revises : processor.Revises (before.mapFiles (overwrite source.location
      (Header.render style processor.notice ++ body).toUTF8)) after sources) :
    processor.Revises before after (source :: sources) := by
  constructor
  · obtain ⟨change, rfl⟩ := revises.entries
    exact ⟨_, FileSystem.mapFiles_mapFiles _ change before⟩
  · intro other member chosen found
    rcases List.mem_cons.1 member with rfl | member
    · have same : style = chosen := Option.some.inj (styled.symm.trans found)
      subst same
      refine ⟨text, body, decoded, stripped, ?_⟩
      -- No later update comes back to this place.
      apply revises.others
      · exact fun later inside same => absurd (List.mem_map.2 ⟨later, inside, same⟩) apart
      · exact FileSystem.nodeAt_overwrite_self held.1 _
    · exact revises.updated other member chosen found
  · intro location content untouched found
    have differ : location ≠ source.location := by
      intro same
      have unstyled := untouched source List.mem_cons_self same.symm
      simp [styled] at unstyled
    apply revises.others
    · exact fun other member => untouched other (List.mem_cons_of_mem _ member)
    · exact FileSystem.nodeAt_overwrite_of_ne differ found _

end Revises

/-- A run goes through the sources that are not rejected, and then on to the other paths. -/
theorem updateAll_append (sources : List Source) (paths : List Path) (files : FileSystem)
    (summary : Summary) (held : ∀ source ∈ sources, files.Holds source)
    (apart : (sources.map (·.location)).Nodup)
    (accepted : ∀ source ∈ sources, ¬ processor.Rejects source) :
    ∃ after, processor.Revises files after sources ∧
      (processor.updateAll (sources.map (·.path) ++ paths) files summary).EndsAs
        (processor.updateAll paths after
          ((sources.map (·.path)).foldl processor.tally summary)) := by
  induction sources generalizing files summary with
  | nil => exact ⟨files, .refl processor files, rfl, rfl⟩
  | cons source sources ih =>
    obtain ⟨alone, apart⟩ := List.nodup_cons.1 apart
    have heldFirst := held source List.mem_cons_self
    have heldRest := fun other member => held other (List.mem_cons_of_mem source member)
    have acceptedRest := fun other member => accepted other (List.mem_cons_of_mem source member)
    cases styled : processor.styleOf source.path with
    | none =>
      obtain ⟨after, revises, ends⟩ :=
        ih files (processor.tally summary source.path) heldRest apart acceptedRest
      exact ⟨after, revises.skip styled,
        (updateAll_cons_of_unstyled styled _ files summary).trans ends⟩
    | some style =>
      obtain ⟨short, text, body, decoded, stripped⟩ :=
        exists_body_of_not_rejects styled (accepted source List.mem_cons_self)
      -- The others stand elsewhere, so they are held in what the first update leaves.
      have stillHeld : ∀ other ∈ sources, (files.mapFiles (overwrite source.location
          (Header.render style processor.notice ++ body).toUTF8)).Holds other := by
        intro other member
        refine (heldRest other member).overwrite (fun same => ?_) _
        exact alone (List.mem_map.2 ⟨other, member, same⟩)
      obtain ⟨after, revises, ends⟩ :=
        ih _ (processor.tally summary source.path) stillHeld apart acceptedRest
      have updates : processor.updateFile style source.path files = _ :=
        updateFile_eq_ok heldFirst short decoded stripped
      exact ⟨after, .update heldFirst styled decoded stripped alone revises,
        (updateAll_cons_of_ok styled updates _ summary).trans ends⟩

end Processor

end CopyrightHeader

import CopyrightHeader.Proofs.PathTrail
import CopyrightHeader.Proofs.RunOutcome

/-! How the update of one file ends, wherever its path leads.

Nothing is written unless the path leads to a file that is a text with a closed header or none, and
then the path leads to that file for writing as well. So an update that fails leaves the tree alone,
and one that succeeds changes what one file says and nothing else.
-/

set_option autoImplicit false

namespace CopyrightHeader

namespace FileSystem

variable {files : FileSystem}

theorem exists_readText_error {path : Path}
    (nowhere : ∀ location content,
      files.resolve .use path ≠ .ok (.node location (.leaf (.file content)))) :
    ∃ error, files.readText path = .error error := by
  unfold readText read
  split
  · next error _ => exact ⟨error, rfl⟩
  · next unread =>
    split at unread
    · next leads => exact absurd leads (nowhere _ _)
    all_goals cases unread

/-- Where files get other contents, the entries stay as they are. -/
theorem looksSame_mapFiles (change : List FileName → ByteArray → ByteArray) (files : FileSystem)
    (location : List FileName) :
    files.top.LooksSame (files.mapFiles change).top location := by
  unfold Directory.LooksSame
  rw [nodeAt_mapFiles]
  rcases files.top.nodeAt location with _ | ((content | target) | inner)
  all_goals rfl

/-- The second tree is the first with other content in one file. -/
structure Overwrites (before after : FileSystem) (location : List FileName) (content : ByteArray) :
    Prop where
  workingDirectory : after.workingDirectory = before.workingDirectory
  /-- Everywhere there is an entry of the same kind, or none; a link has its target still. -/
  entries : ∀ other, before.top.LooksSame after.top other
  written : after.top.nodeAt location = some (.leaf (.file content))
  /-- All other files say what they said. -/
  others : ∀ other, other ≠ location → ∀ said,
    after.top.nodeAt other = some (.leaf (.file said)) ↔
      before.top.nodeAt other = some (.leaf (.file said))

theorem overwrites_mapFiles {location : List FileName} {old : ByteArray}
    (found : files.top.nodeAt location = some (.leaf (.file old))) (content : ByteArray) :
    files.Overwrites (files.mapFiles (overwrite location content)) location content where
  workingDirectory := rfl
  entries := looksSame_mapFiles _ files
  written := nodeAt_overwrite_self found content
  others := by
    intro other apart said
    rw [nodeAt_mapFiles_eq_file]
    simp [overwrite, apart]

end FileSystem

namespace Processor

variable {processor : Processor} {style : CommentStyle} {path : Path} {files : FileSystem}

/-- The path leads to a file whose header can be replaced: a text with a closed header or none, of
which `body` is the body. -/
def Updatable (files : FileSystem) (style : CommentStyle) (path : Path) (location : List FileName)
    (body : String) : Prop :=
  ∃ content text, files.resolve .use path = .ok (.node location (.leaf (.file content))) ∧
    String.fromUTF8? content = some text ∧ Header.strip style text = .ok body

/-- What is in the way of an update, and the error that it is reported as. -/
inductive Obstructed (files : FileSystem) (style : CommentStyle) (path : Path) : RunError → Prop where
  | noFile {error : OsError} (nowhere : ∀ location content,
      files.resolve .use path ≠ .ok (.node location (.leaf (.file content)))) :
      Obstructed files style path (.reading path error)
  | noText {location : List FileName} {content : ByteArray}
      (leads : files.resolve .use path = .ok (.node location (.leaf (.file content))))
      (undecodable : String.fromUTF8? content = none) :
      Obstructed files style path (.reading path .notText)
  | unclosed {location : List FileName} {content : ByteArray} {text : String}
      (leads : files.resolve .use path = .ok (.node location (.leaf (.file content))))
      (decoded : String.fromUTF8? content = some text)
      (stripped : Header.strip style text = .error ⟨style.opening, style.closing⟩) :
      Obstructed files style path (.header path ⟨style.opening, style.closing⟩)

/-- Every update is in one of two cases, and they come out differently. -/
theorem updateFile_cases (processor : Processor) (style : CommentStyle) (path : Path)
    (files : FileSystem) :
    (∃ error, Obstructed files style path error ∧
      processor.updateFile style path files = (files, .error error)) ∨
    ∃ location body, Updatable files style path location body ∧
      processor.updateFile style path files =
        (files.mapFiles (overwrite location (Header.render style processor.notice ++ body).toUTF8),
          .ok ()) := by
  by_cases somewhere : ∃ location content,
      files.resolve .use path = .ok (.node location (.leaf (.file content)))
  · obtain ⟨location, content, leads⟩ := somewhere
    cases decoded : String.fromUTF8? content with
    | none =>
      have unread := FileSystem.readText_of_undecodable leads decoded
      exact .inl ⟨_, .noText leads decoded, updateFile_of_unreadable unread⟩
    | some text =>
      have readable := FileSystem.readText_of_file leads decoded
      cases stripped : Header.strip style text with
      | error fault =>
        have same := Header.strip_error stripped
        subst same
        exact .inl ⟨_, .unclosed leads decoded stripped, updateFile_of_unclosed readable stripped⟩
      | ok body =>
        exact .inr ⟨location, body, ⟨content, text, leads, decoded, stripped⟩,
          updateFile_of_file leads decoded stripped⟩
  · have nowhere : ∀ location content,
        files.resolve .use path ≠ .ok (.node location (.leaf (.file content))) :=
      fun location content leads => somewhere ⟨location, content, leads⟩
    obtain ⟨error, unread⟩ := FileSystem.exists_readText_error nowhere
    exact .inl ⟨_, .noFile nowhere, updateFile_of_unreadable unread⟩

theorem not_obstructed_of_updatable {location : List FileName} {body : String}
    (updatable : Updatable files style path location body) {error : RunError} :
    ¬ Obstructed files style path error := by
  obtain ⟨content, text, leads, decoded, stripped⟩ := updatable
  rintro (nowhere | ⟨leadsToo, undecodable⟩ | ⟨leadsToo, decodedToo, unclosed⟩)
  · exact nowhere _ _ leads
  · cases leads.symm.trans leadsToo
    cases decoded.symm.trans undecodable
  · cases leads.symm.trans leadsToo
    cases decoded.symm.trans decodedToo
    cases stripped.symm.trans unclosed

/-- An update fails if and only if its path leads to no file, or to one that is no text, or to one
that opens a header and never closes it; then the tree is as it was. Otherwise the file that the
path leads to, for reading and for writing, has the new header above its old body, and that is all
that has changed. -/
theorem updateFile_all_or_nothing (processor : Processor) (style : CommentStyle) (path : Path)
    (files : FileSystem) :
    let result := processor.updateFile style path files
    (∀ error, result.2 = .error error → result.1 = files ∧ Obstructed files style path error) ∧
    ((∃ error, result.2 = .error error) ↔ ∃ error, Obstructed files style path error) ∧
    (result.2 = .ok () →
      ∃ location content text body,
        files.resolve .use path = .ok (.node location (.leaf (.file content))) ∧
        files.resolve .create path = .ok (.node location (.leaf (.file content))) ∧
        String.fromUTF8? content = some text ∧ Header.strip style text = .ok body ∧
        files.Overwrites result.1 location
          (Header.render style processor.notice ++ body).toUTF8) := by
  intro result
  rcases processor.updateFile_cases style path files with
    ⟨error, obstructed, ends⟩ | ⟨location, body, updatable, ends⟩
  · have fails : result = (files, .error error) := ends
    rw [fails]
    refine ⟨fun other same => ?_, ⟨fun _ => ⟨error, obstructed⟩, fun _ => ⟨error, rfl⟩⟩, nofun⟩
    cases same
    exact ⟨rfl, obstructed⟩
  · have succeeds : result = (_, .ok ()) := ends
    rw [succeeds]
    refine ⟨nofun, ⟨nofun, ?_⟩, fun _ => ?_⟩
    · rintro ⟨error, obstructed⟩
      exact absurd obstructed (not_obstructed_of_updatable updatable)
    · obtain ⟨content, text, leads, decoded, stripped⟩ := updatable
      exact ⟨location, content, text, body, leads, FileSystem.resolve_file leads nofun, decoded,
        stripped, FileSystem.overwrites_mapFiles (FileSystem.nodeAt_of_resolve leads) _⟩

/-- A folder with a file, a link to it, a link to that link, and a link that leads nowhere. -/
def linkedFile : FileSystem where
  top := .leaf ⟨"base.c", by decide⟩ (.file "x\n".toUTF8)
    (.leaf ⟨"hop.c", by decide⟩ (.link "base.c")
      (.leaf ⟨"jump.c", by decide⟩ (.link "./hop.c")
        (.leaf ⟨"lost.c", by decide⟩ (.link "gone.c") .nil)))
  workingDirectory := []
  ordered := by decide
  startsInFolder := ⟨_, rfl⟩

/-- The file is updated through two links, which stay; the file that a link is missing is not made,
and nothing below a file is. -/
theorem updateFile_through_links :
    (∃ after, standard.updateFile .c ⟨"jump.c"⟩ linkedFile = (after, .ok ()) ∧
      after.top.nodeAt [⟨"base.c", by decide⟩] =
        some (.leaf (.file (Header.render .c .default ++ "x\n").toUTF8)) ∧
      linkedFile.top.LooksSame after.top [⟨"jump.c", by decide⟩]) ∧
    (standard.updateFile .c ⟨"lost.c"⟩ linkedFile).1 = linkedFile ∧
    (standard.updateFile .c ⟨"base.c/"⟩ linkedFile).1 = linkedFile := by
  have leads : linkedFile.resolve .use ⟨"jump.c"⟩ =
      .ok (.node [⟨"base.c", by decide⟩] (.leaf (.file "x\n".toUTF8))) := rfl
  have dangling : linkedFile.resolve .use ⟨"lost.c"⟩ = .ok (.vacant [⟨"gone.c", by decide⟩]) := rfl
  have belowFile : linkedFile.resolve .use ⟨"base.c/"⟩ = .error .notDirectory := rfl
  have decodes : String.fromUTF8? "x\n".toUTF8 = some "x\n" := by decide +kernel
  have closed : Header.strip .c "x\n" = .ok "x\n" := rfl
  have stays {path : Path} (nowhere : ∀ location content,
      linkedFile.resolve .use path ≠ .ok (.node location (.leaf (.file content)))) :
      (standard.updateFile .c path linkedFile).1 = linkedFile := by
    obtain ⟨untouched, fails, -⟩ := updateFile_all_or_nothing standard .c path linkedFile
    obtain ⟨error, failed⟩ := fails.2 ⟨.reading path .notFound, .noFile nowhere⟩
    exact (untouched error failed).1
  refine ⟨?_, stays fun _ _ found => ?_, stays fun _ _ found => ?_⟩
  · obtain ⟨-, fails, writes⟩ := updateFile_all_or_nothing standard .c ⟨"jump.c"⟩ linkedFile
    have updates : (standard.updateFile .c ⟨"jump.c"⟩ linkedFile).2 = .ok () := by
      cases ends : (standard.updateFile .c ⟨"jump.c"⟩ linkedFile).2 with
      | ok _ => rfl
      | error error =>
        obtain ⟨_, obstructed⟩ := fails.1 ⟨error, ends⟩
        exact absurd obstructed (not_obstructed_of_updatable ⟨_, _, leads, decodes, closed⟩)
    obtain ⟨location, content, text, body, found, -, decoded, stripped, changed⟩ := writes updates
    cases leads.symm.trans found
    cases decodes.symm.trans decoded
    cases closed.symm.trans stripped
    exact ⟨_, Prod.ext rfl updates, changed.written, changed.entries _⟩
  · cases dangling.symm.trans found
  · cases belowFile.symm.trans found

end Processor

end CopyrightHeader

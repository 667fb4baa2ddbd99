import CopyrightHeader.Config.Load
import CopyrightHeader.Header
import CopyrightHeader.Walk

/-! A processor updates the headers of a whole tree to one notice. -/

set_option autoImplicit false

namespace CopyrightHeader

inductive RunError where
  | walking (root : Path) (error : WalkError)
  | reading (path : Path) (error : OsError)
  | header (path : Path) (error : Header.Unterminated)
  | writing (path : Path) (error : OsError)
  deriving DecidableEq, Repr

def RunError.chain : RunError → List String
  | .walking root error =>
    [s!"Failed to walk directory: {root.text}",
      s!"IO error for operation on {error.path.text}: {error.error.message}", error.error.message]
  | .reading path error => [s!"Failed to read file: {path.text}", error.message]
  | .header path error => [s!"Failed to replace header in {path.text}", error.message]
  | .writing path error => [s!"Failed to write file: {path.text}", error.message]

structure Processor where
  notice : Notice
  styles : StyleTable
  exclusions : Exclusions
  deriving DecidableEq, Repr

namespace Processor

/-- A processor whose headers can be replaced on later runs. -/
def make (notice : Notice) (styles : StyleTable) (exclusions : Exclusions) :
    Except ConfigError Processor :=
  match styles.conflict? notice with
  | none => .ok ⟨notice, styles, exclusions⟩
  | some conflict => .error (.noticeEndsHeader conflict)

/-- The processor of a configuration, with the year filled in; without one, that of the
defaults. -/
def ofConfig (year : String) : Option Config → Except ConfigError Processor
  | none => make .default .builtin .default
  | some config =>
    match config.styles with
    | .error error => .error error
    | .ok styles => make (config.notice.render year) styles config.exclusions

def ofConfigEvents (year : String) : Option Config → List Event
  | none => []
  | some _ => [.renderingYear year]

def styleOf (processor : Processor) (path : Path) : Option CommentStyle :=
  path.fileName.bind processor.styles.resolve

/-- Replaces the header of one file. Nothing is written unless the file could be read and its old
header is closed. -/
def updateFile (processor : Processor) (style : CommentStyle) (path : Path)
    (files : FileSystem) : FileSystem × Except RunError Unit :=
  match files.readText path with
  | .error error => (files, .error (.reading path error))
  | .ok content =>
    match Header.update style processor.notice content with
    | .error error => (files, .error (.header path error))
    | .ok output =>
      match files.writeText path output with
      | .error error => (files, .error (.writing path error))
      | .ok files => (files, .ok ())

end Processor

end CopyrightHeader

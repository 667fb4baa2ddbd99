import CopyrightHeader.Exclusions
import CopyrightHeader.FileSystem.Basic

/-! The regular files below a root, in the order of their names.

Folders that are left out are passed over with all that is below them. Symbolic links below the
root are neither followed nor visited; a root that is a link to a folder is walked. A walk ends at
a folder whose path is too long to be opened.
-/

set_option autoImplicit false

namespace CopyrightHeader

structure WalkError where
  path : Path
  error : OsError
  deriving DecidableEq, Repr

inductive Visit where
  | file (path : Path)
  | excluded (path : Path)
  | failed (error : WalkError)
  deriving DecidableEq, Repr

namespace Visit

def file? : Visit → Option Path
  | .file path => some path
  | _ => none

def excluded? : Visit → Option Path
  | .excluded path => some path
  | _ => none

def error? : Visit → Option WalkError
  | .failed error => some error
  | _ => none

/-- The visits up to the first that failed. -/
def untilFailure : List Visit → List Visit
  | [] => []
  | .failed error :: _ => [.failed error]
  | visit :: rest => visit :: untilFailure rest

end Visit

/-- The visits below a folder whose path is `base`, were a failure not the end. -/
def Directory.visits (excludes : Path → Bool) (base : Path) : Directory → List Visit
  | .nil => []
  | .leaf name (.file _) rest => .file (base.join name.text) :: rest.visits excludes base
  | .leaf _ (.link _) rest => rest.visits excludes base
  | .folder name inner rest =>
    (if excludes (base.join name.text) then [.excluded (base.join name.text)]
      else if (base.join name.text).isTooLong then
        [.failed ⟨base.join name.text, .nameTooLong⟩]
      else inner.visits excludes (base.join name.text)) ++ rest.visits excludes base

namespace FileSystem

def walk (files : FileSystem) (exclusions : Exclusions) (root : Path) : List Visit :=
  let below := fun inner : Directory =>
    Visit.untilFailure (inner.visits (exclusions.excludes root) root)
  match files.resolve .inspect root with
  | .error error => [.failed ⟨root, error⟩]
  | .ok (.vacant _) => [.failed ⟨root, .notFound⟩]
  | .ok (.node _ (.leaf (.file _))) => [.file root]
  | .ok (.node _ (.folder inner)) => below inner
  | .ok (.node _ (.leaf (.link _))) =>
    match files.resolve .use root with
    | .error error => [.failed ⟨root, error⟩]
    | .ok (.vacant _) => [.failed ⟨root, .notFound⟩]
    | .ok (.node _ (.folder inner)) => below inner
    | .ok (.node _ (.leaf _)) => []

/-- The files of a walk from `root`, in walking order, unless it fails. -/
def sourceFiles (files : FileSystem) (exclusions : Exclusions) (root : Path) :
    Except WalkError (List Path) :=
  match (files.walk exclusions root).findSome? Visit.error? with
  | some error => .error error
  | none => .ok ((files.walk exclusions root).filterMap Visit.file?)

end FileSystem

end CopyrightHeader

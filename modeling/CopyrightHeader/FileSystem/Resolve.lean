import CopyrightHeader.FileSystem.Directory

/-! Where a path leads in a directory tree.

A path is followed step by step from a folder. A symbolic link on the way is replaced by the steps
of its target, at most `linkLimit` times; one at the very end is followed unless the link itself is
asked for. A separator at the end of a path asks for a folder. Names and paths may not be too long.
-/

set_option autoImplicit false

namespace CopyrightHeader

inductive OsError where
  | notFound
  | notDirectory
  | isDirectory
  | tooManyLinks
  | nameTooLong
  | nulInPath
  | notText
  deriving DecidableEq, Repr

def OsError.message : OsError → String
  | .notFound => "No such file or directory (os error 2)"
  | .notDirectory => "Not a directory (os error 20)"
  | .isDirectory => "Is a directory (os error 21)"
  | .tooManyLinks => "Too many levels of symbolic links (os error 40)"
  | .nameTooLong => "File name too long (os error 36)"
  | .nulInPath => "file name contained an unexpected NUL byte"
  | .notText => "stream did not contain valid UTF-8"

def Path.limit : Nat := 4095

def Path.isTooLong (path : Path) : Bool := limit < path.text.utf8ByteSize

inductive Step where
  | stay
  | up
  | down (name : FileName)
  /-- A part that is too long to name an entry. -/
  | overlong
  | slash
  deriving DecidableEq

def Step.ofPart (part : List Char) : Step :=
  if part = [] ∨ part = ['.'] then .stay
  else if part = ['.', '.'] then .up
  else if h : IsFileName (String.ofList part) then .down ⟨String.ofList part, h⟩
  else .overlong

def Step.ofParts : List (List Char) → List Step
  | [] => []
  | [[]] => [.slash]
  | [] :: parts => ofParts parts
  | part :: parts => Step.ofPart part :: ofParts parts

def Path.steps (path : Path) : List Step :=
  Step.ofParts (Path.splitSeparators path.text.toList)

inductive Purpose where
  /-- To look at the entry itself, be it a link. -/
  | inspect
  /-- To use what the entry leads to. -/
  | use
  /-- To use it, or to make it. -/
  | create
  deriving DecidableEq, Repr

inductive Place where
  | node (location : List FileName) (node : Node)
  /-- Nothing is there, but the folder around it is. -/
  | vacant (location : List FileName)
  deriving DecidableEq

namespace Directory

def linkLimit : Nat := 40

/-- Follows steps from a location. `onLink` goes on from the folder of a link, by its target and
the steps behind it. -/
def descend (top : Directory) (purpose : Purpose)
    (onLink : List FileName → Path → List Step → Except OsError Place)
    (location : List FileName) : List Step → Except OsError Place
  | [] =>
    match top.nodeAt location with
    | some node => .ok (.node location node)
    | none => .error .notFound
  | .stay :: rest => descend top purpose onLink location rest
  | .slash :: rest => descend top purpose onLink location rest
  | .up :: rest => descend top purpose onLink location.dropLast rest
  | .overlong :: rest =>
    if rest = [.slash] ∧ purpose = .create then .error .isDirectory else .error .nameTooLong
  | .down name :: rest =>
    let next := location ++ [name]
    if rest = [.slash] ∧ purpose = .create then .error .isDirectory
    else
      match top.nodeAt next with
      | some (.folder _) => descend top purpose onLink next rest
      | some (.leaf (.link target)) =>
        if rest = [] ∧ purpose = .inspect then .ok (.node next (.leaf (.link target)))
        else onLink location ⟨target⟩ rest
      | some (.leaf (.file content)) =>
        if rest = [] then .ok (.node next (.leaf (.file content))) else .error .notDirectory
      | none => if rest = [] then .ok (.vacant next) else .error .notFound

/-- Follows a link in the folder `location`, and up to `limit` links on the way. -/
def followLink (top : Directory) (purpose : Purpose) :
    (limit : Nat) → (location : List FileName) → (target : Path) → List Step → Except OsError Place
  | 0, _, _, _ => .error .tooManyLinks
  | limit + 1, location, target, rest =>
    if target.text = "" then .error .notFound
    else
      descend top purpose (followLink top purpose limit)
        (if target.isAbsolute then [] else location) (target.steps ++ rest)

end Directory

end CopyrightHeader

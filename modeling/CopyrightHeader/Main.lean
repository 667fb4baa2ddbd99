import CopyrightHeader.Invocation
import Std.Time.Zoned

/-! The program: takes in what is on disk, carries out the invocation on it and writes back the
files that it changed.

Only what the arguments and the environment name is taken in. An entry that cannot be looked at is
passed over.
-/

set_option autoImplicit false

namespace CopyrightHeader.Disk

def namesOf (path : Path) : List FileName :=
  path.components.filterMap fun
    | .name text => FileName.ofString? text
    | _ => none

/-- A path in the form that looking at entries asks for; its root is the path itself. -/
def located (path : Path) : IO.FS.DirEntry := ⟨path.text, ""⟩

/-- Takes in the entry at a path whose folder has been taken in. A link is kept as a link to what
it finally leads to. -/
def takeEntry (files : FileSystem) (path : Path) : IO FileSystem := do
  try
    let entry ← (located path).root.symlinkMetadata
    let target ← IO.FS.realPath path.text
    let files := if entry.type == .symlink then files.makeLink path target.toString else files
    let target : Path := ⟨target.toString⟩
    match (← (located target).root.metadata).type with
    | .dir => return files.makeFolders target
    | .file =>
      let content ← IO.FS.readBinFile target.text
      match (files.makeParents target).write target content with
      | .ok files => return files
      | .error _ => return files
    | _ => return files
  catch _ => return files

/-- Takes in every entry on the way to a path, and the one at the path. -/
def takePath (files : FileSystem) (path : Path) : IO FileSystem := do
  let mut files := files
  let mut reached : Path := ⟨""⟩
  for component in path.components do
    reached := reached.join component.text
    files ← takeEntry files reached
  return files

/-- Takes in what is below a folder. Links are not followed. -/
partial def takeBelow (files : FileSystem) (folder : Path) : IO FileSystem := do
  let mut files := files
  let entries ← try (located folder).root.readDir catch _ => pure #[]
  for entry in entries do
    let path := folder.join entry.fileName
    files ← takeEntry files path
    let isFolder ← try pure ((← entry.path.symlinkMetadata).type == .dir) catch _ => pure false
    if isFolder then files ← takeBelow files path
  return files

/-- Takes in the tree at a path, which may be a link to it. -/
def takeTree (files : FileSystem) (path : Path) : IO FileSystem := do
  let files ← takePath files path
  try
    if (← (located path).root.metadata).type == .dir then
      takeBelow files ⟨(← IO.FS.realPath path.text).toString⟩
    else return files
  catch _ => return files

/-- Writes the files whose content is no longer what it was. -/
def writeChanges (before after : FileSystem) : IO Unit := do
  let entries := fun (files : FileSystem) => files.top.listing ⟨"/"⟩
  for ((_, old), (path, new)) in (entries before).zip (entries after) do
    if old ≠ new then
      if let .leaf (.file content) := new then IO.FS.writeBinFile path.text content

def snapshot (arguments : List String) (environment : Environment) : IO FileSystem := do
  let current : Path := ⟨(← IO.currentDir).toString⟩
  let mut files := FileSystem.empty (namesOf current)
  if let .ok (.run options) := CommandLine.parse arguments then
    let sources := options.sources environment
    let named := (sources.environment.text?.map Path.mk).toList
    for path in sources.explicit.toList ++ named ++ [sources.rootFile] do
      files ← takePath files path
    files ← takeTree files sources.root
  return files

/-- The settings of a block in which a zero byte ends each. -/
def settings (block : List UInt8) : List (List UInt8) :=
  block.foldr
    (fun byte parts =>
      match parts with
      | part :: parts => if byte = 0 then [] :: part :: parts else (byte :: part) :: parts
      | [] => [[byte]])
    [[]]

/-- The bytes that a variable of the environment holds, from where they are not decoded yet. -/
def variableBytes (name : String) : IO (Option ByteArray) := do
  try
    let block ← IO.FS.readBinFile "/proc/self/environ"
    let front := (name ++ "=").toUTF8.toList
    let setting := (settings block.toList).find? front.isPrefixOf
    return setting.map fun setting => ⟨(setting.drop front.length).toArray⟩
  catch _ => return (← IO.getEnv name).map String.toUTF8

/-- The current year, in universal time where no local time is known. -/
def currentYear : IO String := do
  try return toString (← Std.Time.PlainDate.now).year.toInt
  catch _ =>
    let now ← Std.Time.Timestamp.now
    let time := Std.Time.PlainDateTime.ofWallTime (.ofTimestamp now .zero)
    return toString time.date.year.toInt

end CopyrightHeader.Disk

open CopyrightHeader in
def main (arguments : List String) : IO UInt32 := do
  let environment : Environment :=
    { config := .ofBytes (← Disk.variableBytes configVariable)
      logFilter := .ofBytes (← Disk.variableBytes "RUST_LOG")
      noColor := .ofBytes (← Disk.variableBytes "NO_COLOR")
      -- A terminal is taken to show colours.
      showsColors := ← (← IO.getStdout).isTty
      year := ← Disk.currentYear }
  let files ← Disk.snapshot arguments environment
  let outcome := Invocation.run arguments environment files
  Disk.writeChanges files outcome.files
  IO.print outcome.stdout
  IO.eprint outcome.stderr
  return outcome.exitCode.toUInt32

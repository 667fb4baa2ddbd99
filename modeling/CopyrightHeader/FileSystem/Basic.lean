import CopyrightHeader.FileSystem.Resolve

/-! A file system: a directory tree and the folder that relative paths start from.

Files can be read and written wherever a path leads to one; there are no permissions.
-/

set_option autoImplicit false

namespace CopyrightHeader

structure FileSystem where
  top : Directory
  workingDirectory : List FileName
  ordered : top.Ordered
  /-- A process stands in a folder. -/
  startsInFolder : top.HoldsFolder workingDirectory

namespace FileSystem

def resolve (files : FileSystem) (purpose : Purpose) (path : Path) : Except OsError Place :=
  if path.text = "" then .error .notFound
  else if '\x00' ∈ path.text.toList then .error .nulInPath
  else if path.isTooLong then .error .nameTooLong
  else
    files.top.descend purpose (files.top.followLink purpose Directory.linkLimit)
      (if path.isAbsolute then [] else files.workingDirectory) path.steps

def isPresent (files : FileSystem) (path : Path) : Bool :=
  match files.resolve .use path with
  | .ok (.node _ _) => true
  | _ => false

def read (files : FileSystem) (path : Path) : Except OsError ByteArray :=
  match files.resolve .use path with
  | .ok (.node _ (.leaf (.file content))) => .ok content
  | .ok (.node _ (.leaf (.link _))) => .error .tooManyLinks
  | .ok (.node _ (.folder _)) => .error .isDirectory
  | .ok (.vacant _) => .error .notFound
  | .error error => .error error

/-- The text of a file, which has to be valid UTF-8. -/
def readText (files : FileSystem) (path : Path) : Except OsError String :=
  match files.read path with
  | .error error => .error error
  | .ok content =>
    match String.fromUTF8? content with
    | some text => .ok text
    | none => .error .notText

/-- The file system with another tree; the same if that has no folder to stand in. -/
def withTop (files : FileSystem) (top : Directory) (ordered : top.Ordered) : FileSystem :=
  if stays : top.HoldsFolder files.workingDirectory then
    { files with top, ordered, startsInFolder := stays }
  else files

/-- Puts a node at a location; nothing if the folder around it is missing. -/
def put (files : FileSystem) (location : List FileName) (node : Node)
    (inner : ∀ i, node = .folder i → i.Ordered) : FileSystem :=
  match location.getLast? with
  | none => files
  | some name =>
    files.withTop (files.top.modifyAt (·.insert name node) location.dropLast)
      (files.ordered.modifyAt (fun _ ordered => ordered.insert name inner) _)

def putLeaf (files : FileSystem) (location : List FileName) (leaf : Leaf) : FileSystem :=
  files.put location (.leaf leaf) (fun _ same => nomatch same)

def putEmptyFolder (files : FileSystem) (location : List FileName) : FileSystem :=
  files.put location (.folder .nil) (fun _ same => Node.folder.inj same ▸ trivial)

/-- Gives a file new content; makes the file if only its folder exists. -/
def write (files : FileSystem) (path : Path) (content : ByteArray) : Except OsError FileSystem :=
  match files.resolve .create path with
  | .ok (.node location (.leaf (.file _))) => .ok (files.putLeaf location (.file content))
  | .ok (.node _ (.leaf (.link _))) => .error .tooManyLinks
  | .ok (.node _ (.folder _)) => .error .isDirectory
  | .ok (.vacant location) => .ok (files.putLeaf location (.file content))
  | .error error => .error error

def writeText (files : FileSystem) (path : Path) (text : String) : Except OsError FileSystem :=
  files.write path text.toUTF8

def empty (workingDirectory : List FileName) : FileSystem where
  top := .wayTo workingDirectory
  workingDirectory := workingDirectory
  ordered := Directory.ordered_wayTo workingDirectory
  startsInFolder := Directory.holdsFolder_wayTo workingDirectory

/-- Makes a folder inside one that is there; nothing if the path is taken. -/
def makeFolder (files : FileSystem) (path : Path) : FileSystem :=
  match files.resolve .create path with
  | .ok (.vacant location) => files.putEmptyFolder location
  | _ => files

/-- Makes the folder `base` leads to by `components`, and those on the way, unless they are
there. -/
def makeFoldersFrom (files : FileSystem) (base : Path) : List Path.Component → FileSystem
  | [] => files
  | component :: components =>
    let next := base.join component.text
    makeFoldersFrom (files.makeFolder next) next components

def makeFolders (files : FileSystem) (path : Path) : FileSystem :=
  files.makeFoldersFrom ⟨""⟩ path.components

def makeParents (files : FileSystem) (path : Path) : FileSystem :=
  files.makeFolders (Path.ofComponents path.components.dropLast)

def makeLink (files : FileSystem) (path : Path) (target : String) : FileSystem :=
  match files.resolve .inspect path with
  | .ok (.vacant location) => files.putLeaf location (.link target)
  | _ => files

/-- Removes the entry that a path names, with all that is in it. -/
def remove (files : FileSystem) (path : Path) : FileSystem :=
  match files.resolve .inspect path with
  | .ok (.node location _) =>
    match location.getLast? with
    | none => files
    | some name =>
      files.withTop (files.top.modifyAt (·.erase name) location.dropLast)
        (files.ordered.modifyAt (fun _ ordered => ordered.erase name) _)
  | _ => files

end FileSystem

/-- Every entry with its path from `base`; a folder comes just before its contents. -/
def Directory.listing (base : Path) : Directory → List (Path × Node)
  | .nil => []
  | .leaf name entry rest => (base.join name.text, .leaf entry) :: rest.listing base
  | .folder name inner rest =>
    (base.join name.text, .folder inner) ::
      (inner.listing (base.join name.text) ++ rest.listing base)

/-- Every entry below the working directory, with its path from there. -/
def FileSystem.listing (files : FileSystem) : List (Path × Node) :=
  match files.top.nodeAt files.workingDirectory with
  | some (.folder inner) => inner.listing ⟨""⟩
  | _ => []

end CopyrightHeader

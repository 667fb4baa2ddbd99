import CopyrightHeader.Exclusions
import CopyrightHeader.FileSystem.Resolve
import CopyrightHeader.SortedMap
import CopyrightHeader.StyleTable
import CopyrightHeader.Toml.Document

/-! What a configuration says, what it must not say, and what it makes of the defaults. -/

set_option autoImplicit false

namespace CopyrightHeader

/-- A comment style as it is configured, without a name of its own. -/
structure Framing where
  opening : String
  lead : String
  closing : String
  deriving DecidableEq, Repr

def Framing.toStyle (framing : Framing) (name : String) : CommentStyle :=
  ⟨name, framing.opening, framing.lead, framing.closing⟩

structure Config where
  noticeLines : Option (List String)
  exclude : Option (List String)
  /-- Styles by file extension, without its dot. -/
  extensions : SortedMap Framing
  /-- Styles by file name or pattern. -/
  fileNames : SortedMap Framing

inductive DecodeFault where
  | document (error : Toml.Error)
  | unknownKey (key : String)
  | wrongType (key expected : String)
  | missingField (key field : String)
  | outOfRange (key : String)
  deriving DecidableEq, Repr

def DecodeFault.message : DecodeFault → String
  | .document error => error.message
  | .unknownKey key => s!"TOML parse error: unknown field `{key}`"
  | .wrongType key expected => s!"TOML parse error: `{key}` is not {expected}"
  | .missingField key field => s!"TOML parse error: `{key}` has no field `{field}`"
  | .outOfRange key => s!"TOML parse error: a number in `{key}` is out of range"

inductive StyleFault where
  | emptyOpening
  | emptyClosing
  | leadingDot
  deriving DecidableEq, Repr

def StyleFault.message : StyleFault → String
  | .emptyOpening => "begin field cannot be empty"
  | .emptyClosing => "end field cannot be empty"
  | .leadingDot => "extension should not include leading dot"

inductive ExcludeFault where
  | empty
  | absolute
  deriving DecidableEq, Repr

def ExcludeFault.message : ExcludeFault → String
  | .empty => "entry cannot be empty"
  | .absolute => "entry must be relative to the root"

inductive ConfigError where
  | unreadable (path : Path) (error : OsError)
  | malformed (path : Path) (fault : DecodeFault)
  | invalidStyle (key : String) (fault : StyleFault)
  | invalidPattern (pattern : String) (error : Glob.PatternError)
  | invalidExclude (entry : String) (fault : ExcludeFault)
  | noticeEndsHeader (conflict : StyleTable.Conflict)
  deriving DecidableEq, Repr

namespace ConfigError

def message : ConfigError → String
  | .unreadable path error => s!"Failed to read config file '{path.text}': {error.message}"
  | .malformed path fault => s!"Failed to parse config file '{path.text}': {fault.message}"
  | .invalidStyle key fault => s!"Invalid comment style for '{key}': {fault.message}"
  | .invalidPattern pattern error => s!"Invalid filename pattern '{pattern}': {error.message}"
  | .invalidExclude entry fault => s!"Invalid exclude entry '{entry}': {fault.message}"
  | .noticeEndsHeader conflict => conflict.message

/-- The message of the error that this one was made from. -/
def cause : ConfigError → Option String
  | .unreadable _ error => some error.message
  | .malformed _ fault => some fault.message
  | .invalidPattern _ error => some error.message
  | .invalidStyle _ _ => none
  | .invalidExclude _ _ => none
  | .noticeEndsHeader _ => none

def chain (error : ConfigError) : List String := error.message :: error.cause.toList

end ConfigError

namespace Config

def notice (config : Config) : Notice :=
  match config.noticeLines with
  | some lines => ⟨lines⟩
  | none => .default

def exclusions (config : Config) : Exclusions :=
  match config.exclude with
  | some entries => .ofEntries entries
  | none => .default

def markerFault (entry : String × Framing) : Option ConfigError :=
  if entry.2.opening = "" then some (.invalidStyle entry.1 .emptyOpening)
  else if entry.2.closing = "" then some (.invalidStyle entry.1 .emptyClosing)
  else none

def dotFault (entry : String × Framing) : Option ConfigError :=
  if entry.1.toList.head? = some '.' then some (.invalidStyle entry.1 .leadingDot) else none

def excludeFault (entry : String) : Option ConfigError :=
  if entry = "" then some (.invalidExclude entry .empty)
  else if (Path.mk entry).isAbsolute then some (.invalidExclude entry .absolute)
  else none

/-- The first fault of a configuration: markers of extensions, markers of file names, dots of
extensions, excluded subtrees. -/
def fault? (config : Config) : Option ConfigError :=
  (config.extensions.entries ++ config.fileNames.entries).findSome? markerFault
    <|> config.extensions.entries.findSome? dotFault
    <|> (config.exclude.getD []).findSome? excludeFault

def fileNameRule (entry : String × Framing) : Except ConfigError StyleRule :=
  match NameMatcher.ofFileName entry.1 with
  | .ok matcher => .ok ⟨matcher, entry.2.toStyle (entry.1 ++ "-style")⟩
  | .error error => .error (.invalidPattern entry.1 error)

def extensionRule (entry : String × Framing) : StyleRule :=
  ⟨.suffix ("." ++ entry.1), entry.2.toStyle ("." ++ entry.1 ++ "-style")⟩

/-- The rules of file names, those of extensions behind them, and the built-in ones last. -/
def styles (config : Config) : Except ConfigError StyleTable :=
  (config.fileNames.entries.mapM fileNameRule).map fun fileNames =>
    ⟨fileNames ++ config.extensions.entries.map extensionRule ++ StyleTable.builtin.rules⟩

end Config

end CopyrightHeader

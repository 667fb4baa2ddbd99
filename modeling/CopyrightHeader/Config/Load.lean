import CopyrightHeader.Config.Decode
import CopyrightHeader.Event
import CopyrightHeader.FileSystem.Basic
import CopyrightHeader.Variable

/-! Which configuration is in force.

One source decides: a path given on the command line, the one in the environment if it leads to
something, the file in the root of the tree if there is one. A bad source is an error and never
gives way to a lower one. What cannot be looked up counts as missing, though, and so does a value in
the environment that is not text.
-/

set_option autoImplicit false

namespace CopyrightHeader

namespace Config

def load (files : FileSystem) (path : Path) : Except ConfigError Config :=
  match files.readText path with
  | .error error => .error (.unreadable path error)
  | .ok text =>
    match parse text with
    | .error fault => .error (.malformed path fault)
    | .ok config =>
      match config.fault? with
      | some error => .error error
      | none => .ok config

def loadEvents (files : FileSystem) (path : Path) : List Event :=
  .loadingConfig path ::
    match load files path with
    | .ok config => [.loadedConfig config.extensions.size config.fileNames.size]
    | .error _ => []

end Config

structure ConfigSources where
  /-- No source is looked at. -/
  disabled : Bool
  explicit : Option Path
  environment : Variable
  root : Path

structure LoadError where
  path : Path
  error : ConfigError
  deriving DecidableEq, Repr

def LoadError.chain (failure : LoadError) : List String :=
  s!"Failed to load config from {failure.path.text}" :: failure.error.chain

namespace ConfigSources

def rootFile (sources : ConfigSources) : Path := sources.root.join configFileName

/-- The environment's path, if it leads to something. -/
def environmentFile (sources : ConfigSources) (files : FileSystem) : Option Path :=
  (sources.environment.text?.map Path.mk).filter files.isPresent

/-- The path of the configuration in force. A path given on the command line need not exist. -/
def discover (sources : ConfigSources) (files : FileSystem) : Option Path :=
  sources.explicit
    <|> sources.environmentFile files
    <|> (some sources.rootFile).filter files.isPresent

def discoverEvents (sources : ConfigSources) (files : FileSystem) : List Event :=
  match sources.explicit with
  | some path => [.explicitConfig path]
  | none =>
    let inRoot :=
      if files.isPresent sources.rootFile then .rootConfig sources.rootFile else .noConfig
    match sources.environment.text? with
    | none => [inRoot]
    | some value =>
      if files.isPresent ⟨value⟩ then [.environmentConfig ⟨value⟩]
      else [.environmentConfigMissing ⟨value⟩, inRoot]

/-- The configuration in force; `none` if there is no source. -/
def load (sources : ConfigSources) (files : FileSystem) : Except LoadError (Option Config) :=
  if sources.disabled then .ok none
  else
    match sources.discover files with
    | none => .ok none
    | some path =>
      match Config.load files path with
      | .ok config => .ok (some config)
      | .error error => .error ⟨path, error⟩

def loadEvents (sources : ConfigSources) (files : FileSystem) : List Event :=
  if sources.disabled then [.configDisabled]
  else
    sources.discoverEvents files ++
      match sources.discover files with
      | none => []
      | some path => Config.loadEvents files path

end ConfigSources

end CopyrightHeader

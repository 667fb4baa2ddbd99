import CopyrightHeader.Path
import CopyrightHeader.Summary

/-! What happens during an invocation, as it is told to the user. -/

set_option autoImplicit false

namespace CopyrightHeader

/-- The file that holds the configuration of a tree, in its root. -/
def configFileName : String := ".update-copyright.toml"

/-- The environment variable that may name a configuration file. -/
def configVariable : String := "UPDATE_COPYRIGHT_CONFIG"

inductive Event where
  | configDisabled
  | explicitConfig (path : Path)
  | environmentConfig (path : Path)
  | environmentConfigMissing (path : Path)
  | rootConfig (path : Path)
  | noConfig
  | loadingConfig (path : Path)
  | loadedConfig (extensions fileNames : Nat)
  | usingConfig
  | renderingYear (year : String)
  | scanning (root : Path)
  | excluded (path : Path)
  | found (count : Nat)
  | processing (style : String) (path : Path)
  | unmatched (path : Path)
  | finished (updated skipped : Nat)
  | completed (summary : Summary)

inductive Channel where
  /-- Progress, on standard output. -/
  | progress
  /-- Details for the curious, on standard error. -/
  | detail
  /-- Diagnostics, on standard error. -/
  | debug
  deriving DecidableEq, Repr

namespace Event

def channel : Event → Channel
  | .processing _ _ => .progress
  | .completed _ => .progress
  | .usingConfig => .debug
  | .scanning _ => .debug
  | .found _ => .debug
  | .finished _ _ => .debug
  | _ => .detail

/-- The text of an event. Elapsed time is not recorded; an `N` stands for it. -/
def message : Event → String
  | .configDisabled => "Config file discovery disabled (--no-config)"
  | .explicitConfig path => s!"Using explicit config path: {path.text}"
  | .environmentConfig path => s!"Using config from {configVariable}: {path.text}"
  | .environmentConfigMissing path => s!"{configVariable} path does not exist: {path.text}"
  | .rootConfig path => s!"Using root config: {path.text}"
  | .noConfig => "No config file found"
  | .loadingConfig path => s!"Loading config from: {path.text}"
  | .loadedConfig extensions fileNames =>
    s!"Loaded {extensions} extension and {fileNames} filename style overrides"
  | .usingConfig => "Using configuration file overrides"
  | .renderingYear year => s!"Rendering notice with year: {year}"
  | .scanning root => s!"Scanning directory: {root.text}"
  | .excluded path => s!"Skipping: {path.text} (excluded)"
  | .found count => s!"Found {count} files in Nms"
  | .processing style path => s!"Processing {style} file: {path.text}"
  | .unmatched path => s!"Skipping: {path.text} (no matching style)"
  | .finished updated skipped => s!"Rewrote {updated} files, skipped {skipped}"
  | .completed summary => summary.line

/-- The part of the program that a diagnostic comes from, as log filters name it. -/
def target : Event → String
  | .usingConfig => "update_copyright::cli::update"
  | .scanning _ => "update_copyright::walker"
  | .found _ => "update_copyright::walker"
  | _ => "update_copyright::processor"

end Event

end CopyrightHeader

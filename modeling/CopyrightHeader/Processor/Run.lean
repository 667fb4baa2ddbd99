import CopyrightHeader.Processor.Basic

/-! A run over a tree: walk, then update file by file. The first error ends it. -/

set_option autoImplicit false

namespace CopyrightHeader

structure Run where
  files : FileSystem
  events : List Event
  outcome : Except RunError Summary

namespace Processor

/-- Goes through the files in order. A path without a file name is passed over. -/
def updateAll (processor : Processor) : List Path → FileSystem → Summary → Run
  | [], files, summary => ⟨files, [], .ok summary⟩
  | path :: paths, files, summary =>
    match path.fileName with
    | none => processor.updateAll paths files summary
    | some name =>
      match processor.styles.resolve name with
      | none =>
        let rest := processor.updateAll paths files summary.skip
        { rest with events := .unmatched path :: rest.events }
      | some style =>
        match processor.updateFile style path files with
        | (files, .error error) => ⟨files, [.processing style.name path], .error error⟩
        | (files, .ok ()) =>
          let rest := processor.updateAll paths files (summary.record style.name)
          { rest with events := .processing style.name path :: rest.events }

/-- The last word of a run, if it came to its end. -/
def finishedEvents : Except RunError Summary → List Event
  | .ok summary => [.finished summary.total summary.skipped]
  | .error _ => []

/-- Updates every file below `root` that has a style. -/
def run (processor : Processor) (root : Path) (files : FileSystem) : Run :=
  let excluded := (files.walk processor.exclusions root).filterMap Visit.excluded?
  let events := .scanning root :: excluded.map .excluded
  match files.sourceFiles processor.exclusions root with
  | .error error => ⟨files, events, .error (.walking root error)⟩
  | .ok paths =>
    let rest := processor.updateAll paths files .empty
    { rest with
      events := events ++ .found paths.length :: rest.events ++ finishedEvents rest.outcome }

end Processor

end CopyrightHeader

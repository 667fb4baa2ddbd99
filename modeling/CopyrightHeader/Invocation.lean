import CopyrightHeader.CommandLine
import CopyrightHeader.Processor.Run

/-! One invocation of the program: from arguments to output, exit code and changed files. -/

set_option autoImplicit false

namespace CopyrightHeader

structure Environment where
  /-- May name a configuration file. -/
  config : Variable
  /-- Directives for diagnostics. -/
  logFilter : Variable
  /-- May keep colours out of the diagnostics. -/
  noColor : Variable
  /-- Whether standard output is found to show colours. -/
  showsColors : Bool
  year : String
  deriving DecidableEq, Repr

inductive Failure where
  | loading (error : LoadError)
  | building (error : ConfigError)
  | running (error : RunError)
  deriving DecidableEq, Repr

namespace Failure

def chain : Failure → List String
  | .loading error => error.chain
  | .building error => error.chain
  | .running error => error.chain

/-- A text whose lines but the first are indented. -/
def indentRest (indent : String) (text : String) : String :=
  String.ofList (text.toList.flatMap fun c => if c = '\n' then '\n' :: indent.toList else [c])

/-- The causes of an error, numbered if there are several. -/
def causeLines : List String → List String
  | [] => []
  | [cause] => ["    " ++ indentRest "    " cause]
  | causes =>
    causes.zipIdx.map fun (cause, number) =>
      let digits := toString number
      String.ofList (List.replicate (5 - digits.length) ' ') ++ digits ++ ": " ++
        indentRest "       " cause

def report (failure : Failure) : String :=
  match failure.chain with
  | [] => ""
  | message :: causes =>
    let head := "Error: " ++ message ++ "\n"
    match causeLines causes with
    | [] => head
    | lines => head ++ "\nCaused by:\n" ++ Console.unlines lines

end Failure

structure Completion where
  files : FileSystem
  events : List Event
  failure : Option Failure

namespace Options

/-- The console that the options and the environment ask for. A log filter that cannot be read is
passed over. Any text but the empty one keeps colours out of the diagnostics. -/
def console (options : Options) (environment : Environment) : Console where
  mode := .ofFlags options.quiet options.verbose
  colors := options.colors
  showsColors := environment.showsColors
  marksLevels := environment.noColor.text?.all (· = "")
  filter :=
    (environment.logFilter.text?.bind LogFilter.ofText?).getD
      (.ofLevel (.ofFlags options.quiet options.verbose))

def sources (options : Options) (environment : Environment) : ConfigSources where
  disabled := options.noConfig
  explicit := options.config
  environment := environment.config
  root := options.root

/-- Goes on with the configuration in force. -/
def performWith (options : Options) (year : String) (config : Option Config)
    (files : FileSystem) : Completion :=
  let events :=
    (if config.isSome then [.usingConfig] else []) ++ Processor.ofConfigEvents year config
  match Processor.ofConfig year config with
  | .error error => ⟨files, events, some (.building error)⟩
  | .ok processor =>
    let run := processor.run options.root files
    match run.outcome with
    | .error error => ⟨run.files, events ++ run.events, some (.running error)⟩
    | .ok summary => ⟨run.files, events ++ run.events ++ [.completed summary], none⟩

/-- Loads the configuration, builds the processor and runs it. -/
def perform (options : Options) (environment : Environment) (files : FileSystem) : Completion :=
  let sources := options.sources environment
  let events := sources.loadEvents files
  match sources.load files with
  | .error error => ⟨files, events, some (.loading error)⟩
  | .ok config =>
    let rest := options.performWith environment.year config files
    { rest with events := events ++ rest.events }

end Options

structure Outcome where
  files : FileSystem
  exitCode : Nat
  stdout : String
  stderr : String

namespace Invocation

def versionLine : String := "update-copyright 0.1.0"

/-- The summary of the usage. A longer help says the same in another layout; it is not told apart. -/
def helpText : String :=
  Console.unlines
    ["update-copyright v0.1.0",
      "",
      "Rewrites the copyright header at the top of every source file in a tree, replacing any existing",
      "header block with the canonical notice.",
      "",
      "Usage: update-copyright [OPTIONS] [ROOT]",
      "",
      "Arguments:",
      "  [ROOT]  Root of the tree to rewrite. Exclusions are relative to it [default: .]",
      "",
      "Options:",
      "      --config <FILE>    Path to config file (default: .update-copyright.toml in ROOT)",
      "      --no-config        Ignore config file even if present",
      "  -v, --verbose...       Increase verbosity (-v info, -vv debug, -vvv trace)",
      "  -q, --quiet            Suppress all output except errors",
      "      --colors [<WHEN>]  Control when to use colored output (auto, never, always) [default: auto]",
      "                         [possible values: auto, never, always]",
      "  -h, --help             Print help (see more with '--help')",
      "  -V, --version          Print version",
      "",
      "Examples:",
      "  # Rewrite headers in the current directory",
      "  update-copyright",
      "",
      "  # Rewrite headers under another directory",
      "  update-copyright ../rpc",
      "",
      "  # Use a specific configuration file",
      "  update-copyright --config copyright.toml",
      "",
      "  # Ignore any .update-copyright.toml and use the built-in notice",
      "  update-copyright --no-config"]

def run (arguments : List String) (environment : Environment) (files : FileSystem) : Outcome :=
  match CommandLine.parse arguments with
  | .error error => ⟨files, 2, "", "error: " ++ error.message ++ "\n"⟩
  | .ok .version => ⟨files, 0, versionLine ++ "\n", ""⟩
  | .ok .help => ⟨files, 0, helpText, ""⟩
  | .ok (.run options) =>
    let console := options.console environment
    let done := options.perform environment files
    let stderr := console.stderr done.events
    match done.failure with
    | none => ⟨done.files, 0, console.stdout done.events, stderr⟩
    | some failure => ⟨done.files, 1, console.stdout done.events, stderr ++ failure.report⟩

end Invocation

end CopyrightHeader

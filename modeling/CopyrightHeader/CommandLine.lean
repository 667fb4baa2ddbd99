import CopyrightHeader.Console.Output

/-! The arguments of the command line.

Arguments are read from left to right, and the first fault ends the reading. What must not be given
together is looked for at the end.
-/

set_option autoImplicit false

namespace CopyrightHeader

/-- What a run is asked to do. -/
structure Options where
  root : Path
  config : Option Path
  noConfig : Bool
  verbose : Nat
  quiet : Bool
  colors : ColorMode
  deriving DecidableEq, Repr

inductive Command where
  | run (options : Options)
  | version
  | help
  deriving DecidableEq, Repr

inductive UsageError where
  | unexpected (argument : String)
  | missingValue (option : String)
  | invalidValue (option value : String)
  | repeated (option : String)
  | conflict (first second : String)
  deriving DecidableEq, Repr

def UsageError.message : UsageError → String
  | .unexpected argument => s!"unexpected argument '{argument}' found"
  | .missingValue option => s!"a value is required for '{option}' but none was supplied"
  | .invalidValue option value => s!"invalid value '{value}' for '{option}'"
  | .repeated option => s!"the argument '{option}' cannot be used multiple times"
  | .conflict first second => s!"the argument '{first}' cannot be used with '{second}'"

namespace CommandLine

structure Given where
  root : Option String
  config : Option String
  noConfig : Bool
  verbose : Nat
  quiet : Bool
  colors : Option ColorMode

def Given.nothing : Given := ⟨none, none, false, 0, false, none⟩

/-- What reading came to: the arguments so far, or a command that ends it. -/
inductive Reading where
  | given (given : Given)
  | command (command : Command)

def setRoot (given : Given) (value : String) : Except UsageError Given :=
  if given.root.isSome then .error (.unexpected value)
  else if value = "" then .error (.missingValue "[ROOT]")
  else .ok { given with root := some value }

def setConfig (given : Given) (value : String) : Except UsageError Given :=
  if given.config.isSome then .error (.repeated "--config <FILE>")
  else if value = "" then .error (.missingValue "--config <FILE>")
  else .ok { given with config := some value }

def setColors (given : Given) (value : String) : Except UsageError Given :=
  if given.colors.isSome then .error (.repeated "--colors [<WHEN>]")
  else
    match ColorMode.ofText? false value with
    | some mode => .ok { given with colors := some mode }
    | none => .error (.invalidValue "--colors [<WHEN>]" value)

def setQuiet (given : Given) : Except UsageError Given :=
  if given.quiet then .error (.repeated "--quiet") else .ok { given with quiet := true }

def setNoConfig (given : Given) : Except UsageError Given :=
  if given.noConfig then .error (.repeated "--no-config") else .ok { given with noConfig := true }

def addVerbose (given : Given) : Given := { given with verbose := given.verbose + 1 }

def readFlags (given : Given) : List Char → Except UsageError Reading
  | [] => .ok (.given given)
  | c :: rest =>
    if c = 'v' then readFlags (addVerbose given) rest
    else if c = 'q' then
      match setQuiet given with
      | .ok given => readFlags given rest
      | .error error => .error error
    else if c = 'V' then .ok (.command .version)
    else if c = 'h' then .ok (.command .help)
    else .error (.unexpected (String.ofList ['-', c]))

def readLongFlag (given : Given) (name : String) : Except UsageError Reading :=
  if name = "verbose" then .ok (.given (addVerbose given))
  else if name = "quiet" then (setQuiet given).map .given
  else if name = "no-config" then (setNoConfig given).map .given
  else if name = "version" then .ok (.command .version)
  else if name = "help" then .ok (.command .help)
  else .error (.unexpected ("--" ++ name))

/-- Behind `--` every argument is a root. -/
def readRoots (given : Given) : List String → Except UsageError Reading
  | [] => .ok (.given given)
  | value :: rest =>
    match setRoot given value with
    | .ok given => readRoots given rest
    | .error error => .error error

/-- Whether an argument can be the value of the option in front of it. -/
def isValue (argument : String) : Bool :=
  argument.toList.head? ≠ some '-' || argument = "-"

inductive Argument where
  | value (text : String)
  | flags (chars : List Char)
  | long (name : String)
  | assignment (name value : String)
  | separator

def Argument.ofString (text : String) : Argument :=
  match text.toList with
  | ['-', '-'] => .separator
  | '-' :: '-' :: rest =>
    match rest.dropWhile (· ≠ '=') with
    | [] => .long (String.ofList rest)
    | _ :: after => .assignment (String.ofList (rest.takeWhile (· ≠ '='))) (String.ofList after)
  | '-' :: c :: rest => .flags (c :: rest)
  | _ => .value text

def readArguments (given : Given) : List String → Except UsageError Reading
  | [] => .ok (.given given)
  | argument :: rest =>
    match Argument.ofString argument with
    | .separator => readRoots given rest
    | .value text => (setRoot given text).bind fun given => readArguments given rest
    | .flags chars =>
      match readFlags given chars with
      | .ok (.given given) => readArguments given rest
      | reading => reading
    | .assignment name value =>
      if name = "config" then
        (setConfig given value).bind fun given => readArguments given rest
      else if name = "colors" then
        (setColors given value).bind fun given => readArguments given rest
      else .error (.unexpected argument)
    | .long name =>
      if name = "config" then
        match rest with
        | value :: rest =>
          if isValue value then
            (setConfig given value).bind fun given => readArguments given rest
          else .error (.missingValue "--config <FILE>")
        | [] => .error (.missingValue "--config <FILE>")
      else if name = "colors" then
        match rest with
        | value :: rest =>
          if isValue value then
            (setColors given value).bind fun given => readArguments given rest
          else (setColors given "always").bind fun given => readArguments given (value :: rest)
        | [] => (setColors given "always").map .given
      else
        match readLongFlag given name with
        | .ok (.given given) => readArguments given rest
        | reading => reading

def finish (given : Given) : Except UsageError Command :=
  if given.quiet ∧ 0 < given.verbose then .error (.conflict "--quiet" "--verbose...")
  else if given.noConfig ∧ given.config.isSome then
    .error (.conflict "--no-config" "--config <FILE>")
  else
    .ok <| .run
      { root := ⟨given.root.getD "."⟩
        config := given.config.map Path.mk
        noConfig := given.noConfig
        verbose := given.verbose
        quiet := given.quiet
        colors := given.colors.getD .auto }

def parse (arguments : List String) : Except UsageError Command :=
  match readArguments .nothing arguments with
  | .error error => .error error
  | .ok (.command command) => .ok command
  | .ok (.given given) => finish given

end CommandLine

end CopyrightHeader

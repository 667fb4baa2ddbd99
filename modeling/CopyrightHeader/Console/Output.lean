import CopyrightHeader.Console.LogFilter
import CopyrightHeader.Event

/-! How events are written to standard output and standard error. -/

set_option autoImplicit false

namespace CopyrightHeader

inductive OutputMode where
  | normal
  | quiet
  | verbose
  deriving DecidableEq, Repr

namespace OutputMode

def isVerbose (mode : OutputMode) : Bool := mode = .verbose

def isQuiet (mode : OutputMode) : Bool := mode = .quiet

/-- Verbose wins. -/
def ofFlags (quiet : Bool) (verbose : Nat) : OutputMode :=
  if 0 < verbose then .verbose else if quiet then .quiet else .normal

end OutputMode

/-- When progress is coloured: if standard output shows colours, or in any case, or never. -/
inductive ColorMode where
  | auto
  | never
  | always
  deriving DecidableEq, Repr

namespace ColorMode

def name : ColorMode → String
  | .auto => "auto"
  | .never => "never"
  | .always => "always"

def all : List ColorMode := [.auto, .never, .always]

/-- Whether progress is coloured, if it is known whether the output shows colours. -/
def paints (showsColors : Bool) : ColorMode → Bool
  | .auto => showsColors
  | .never => false
  | .always => true

def ofText? (ignoreCase : Bool) (text : String) : Option ColorMode :=
  all.find? fun mode =>
    (if ignoreCase then text.toList.map Char.toLower else text.toList) = mode.name.toList

end ColorMode

structure Console where
  mode : OutputMode
  colors : ColorMode
  /-- What is found out about standard output. -/
  showsColors : Bool
  /-- Whether the levels of diagnostics are in colour. -/
  marksLevels : Bool
  filter : LogFilter
  deriving DecidableEq, Repr

namespace Console

def paint (console : Console) (line : String) : String :=
  if console.colors.paints console.showsColors then "\x1b[33m" ++ line ++ "\x1b[39m" else line

def stdoutLine (console : Console) (event : Event) : Option String :=
  if event.channel = .progress ∧ console.mode.isQuiet = false then
    some (console.paint event.message)
  else none

/-- A diagnostic's character. One that could command a terminal is replaced by its number. -/
def escapeControl (c : Char) : List Char :=
  let digits := Nat.toDigits 16 c.toNat
  if c = '\x1b' || c = '\x07' || c = '\x08' || c = '\x0c' || c = '\x7f' then
    '\\' :: 'x' :: List.replicate (2 - digits.length) '0' ++ digits
  else if 0x80 ≤ c.toNat && c.toNat ≤ 0x9f then '\\' :: 'u' :: '\x7b' :: digits ++ ['\x7d']
  else [c]

def stderrLine (console : Console) (event : Event) : Option String :=
  match event.channel with
  | .progress => none
  | .detail => if console.mode.isVerbose then some event.message else none
  | .debug =>
    if console.filter.letsDebugThrough event.target then
      let level := if console.marksLevels then "\x1b[34mDEBUG\x1b[0m " else "DEBUG "
      some (level ++ String.ofList (event.message.toList.flatMap escapeControl))
    else none

def unlines (lines : List String) : String :=
  String.ofList (lines.flatMap fun line => line.toList ++ ['\n'])

def stdout (console : Console) (events : List Event) : String :=
  unlines (events.filterMap console.stdoutLine)

def stderr (console : Console) (events : List Event) : String :=
  unlines (events.filterMap console.stderrLine)

end Console

end CopyrightHeader

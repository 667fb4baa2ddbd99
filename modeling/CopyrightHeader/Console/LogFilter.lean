import CopyrightHeader.Console.FieldPattern
import CopyrightHeader.Console.Level
import CopyrightHeader.Text.Bytes
import CopyrightHeader.Text.Whitespace

/-! Filters that let some of the diagnostics through.

A filter is a list of directives between commas. A directive gives a level, or one for what comes
from a target, as in `part=debug`; the longest target decides. In brackets it may name a span and a
field with a pattern for its value, as in `part[span{field=value}]=debug`.

White space around a directive is passed over while its marks are looked for, but their places are
then counted off, in bytes, in the directive as it stands.
-/

set_option autoImplicit false

namespace CopyrightHeader

inductive Directive where
  /-- A level for events: those of a target and those that have a field, if these are given. -/
  | events (target field : Option String) (level : Level)
  /-- A rule for what happens inside a span, or for a value of a field; there are neither. -/
  | span
  deriving DecidableEq, Repr

namespace Directive

/-- Whether a directive can start with a character, brackets apart. -/
def startsTarget (c : Char) : Bool :=
  c = '-' || c = ':' || c = '_' || Text.isAlphanumeric c

def endLevel? (text : List Char) : Option Level :=
  if text = [] then some .trace else Level.ofText? text

/-- The field that a text between braces names, if it asks for no value; `none` for a text that
cannot be used. -/
def field? (text : List Char) : Option (Option String) :=
  match text.dropWhile (· ≠ '=') with
  | [] => some (some (String.ofList text))
  | _ :: value => if FieldPattern.isUsable (value.takeWhile (· ≠ '=')) then some none else none

/-- What comes in a directive as it stands before the place `stop` of the trimmed one. -/
def upTo (directive text : List Char) (stop : Nat) : List Char :=
  Text.takeBytes (Text.byteSize (text.take stop)) directive

/-- What comes in a directive as it stands from the place `start` of the trimmed one. -/
def startingAt (directive text : List Char) (start : Nat) : List Char :=
  Text.dropBytes (Text.byteSize (text.take start)) directive

/-- The level of a directive whose brackets end at the place `stop`. -/
def levelBehind? (directive text : List Char) (stop : Nat) : Option Level :=
  match text.drop stop with
  | [] => some .trace
  | '=' :: _ => endLevel? (startingAt directive text (stop + 1))
  | _ => none

/-- A directive with brackets, of which the first stands at the place `start`. -/
def bracketed? (directive text : List Char) (target : Option String) (start : Nat) :
    Option Directive :=
  let span := (text.drop (start + 1)).takeWhile fun c => c ≠ ']' && c ≠ '\x7b'
  let spanEnd := start + 1 + span.length
  match text.drop spanEnd with
  | [] => none
  | ']' :: _ => (levelBehind? directive text (spanEnd + 1)).map fun _ => .span
  | _ :: behind =>
    let fieldEnd := spanEnd + 1 + (behind.takeWhile (· ≠ '\x7d')).length
    match text.drop fieldEnd with
    | '\x7d' :: ']' :: _ =>
      if fieldEnd = spanEnd + 1 then none
      else do
        let field ← field? (startingAt (upTo directive text fieldEnd) text (spanEnd + 1))
        let level ← levelBehind? directive text (fieldEnd + 2)
        if span = [] && field.isSome then some (.events target field level) else some .span
    | _ => none

def ofChars? (directive : List Char) : Option Directive :=
  let text := Text.trim directive
  let name := text.takeWhile fun c => c ≠ '=' && c ≠ '['
  let target := some (String.ofList (upTo directive text name.length))
  if name = [] then
    if text.head? = some '[' then bracketed? directive text none 0 else none
  else if !name.head?.any startsTarget then none
  else
    match text.drop name.length with
    | [] =>
      match Level.ofText? directive with
      | some level => some (.events none none level)
      | none => some (.events (some (String.ofList directive)) none .trace)
    | '=' :: _ =>
      (endLevel? (startingAt directive text (name.length + 1))).map (.events target none)
    | _ => bracketed? directive text target name.length

/-- How specific a directive is. -/
def weight : Directive → Nat
  | .events target field _ =>
    2 * (target.elim 0 fun name => name.length + 1) + if field.isSome then 1 else 0
  | .span => 0

/-- The level that a directive gives to the events of a target, which have a message and no other
field. -/
def levelFor? (target : String) : Directive → Option Level
  | .events name field level =>
    let about := name.all fun name => name.toList.isPrefixOf target.toList
    if about && field.all (· = "message") then some level else none
  | .span => none

end Directive

structure LogFilter where
  directives : List Directive
  deriving DecidableEq, Repr

namespace LogFilter

def ofLevel (level : Level) : LogFilter := ⟨[.events none none level]⟩

def splitCommas : List Char → List (List Char)
  | [] => [[]]
  | c :: rest =>
    if c = ',' then [] :: splitCommas rest
    else
      match splitCommas rest with
      | [] => [[c]]
      | part :: parts => (c :: part) :: parts

/-- The filter that a text denotes; errors only if there are no directives. -/
def ofText? (text : String) : Option LogFilter :=
  match (splitCommas text.toList).filter (· ≠ []) with
  | [] => some (ofLevel .error)
  | parts => (parts.mapM Directive.ofChars?).map LogFilter.mk

/-- The most specific directive decides, and of several the last. -/
def levelFor (filter : LogFilter) (target : String) : Level :=
  (filter.directives.foldl
    (fun best directive =>
      match directive.levelFor? target with
      | some level => if best.1 ≤ directive.weight then (directive.weight, level) else best
      | none => best)
    (0, Level.off)).2

def letsDebugThrough (filter : LogFilter) (target : String) : Bool :=
  (filter.levelFor target).letsDebugThrough

end LogFilter

end CopyrightHeader

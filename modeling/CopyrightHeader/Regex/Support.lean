import CopyrightHeader.Regex.Syntax

/-! Which regular expressions can be searched for.

A search goes through the bytes of a text, without tables of characters. So letters must count as
they are written, unless they are matched as bytes; digits, spaces and words are those of ASCII, so
bytes must be matched; and what matches bytes may not match a part of a character.
-/

set_option autoImplicit false

namespace CopyrightHeader.Regex

/-- The options that decide what a part of a regular expression matches. -/
structure Options where
  ignoreCase : Bool
  /-- Characters are matched, not bytes. -/
  unicode : Bool
  deriving DecidableEq, Repr

namespace Options

def initial : Options := ⟨false, true⟩

def apply (options : Options) (switches : Switches) : Options where
  ignoreCase := (switches.state? 'i').getD options.ignoreCase
  unicode := (switches.state? 'u').getD options.unicode

/-- Whether characters outside of classes can be told apart. -/
def allows (options : Options) (literal : Literal) : Bool :=
  if options.unicode then !options.ignoreCase
  else !literal.isByte || literal.char.toNat < 128

/-- Whether characters of a class can be told apart. -/
def allowsInSet (options : Options) (literal : Literal) : Bool :=
  if options.unicode then !options.ignoreCase else literal.char.toNat < 128

/-- Whether digits, spaces and words, or all but these, are known. -/
def allowsShorthand (options : Options) (negated : Bool) : Bool :=
  !options.unicode && !negated

end Options

mutual

def CharacterSet.isSupported (options : Options) : CharacterSet → Bool
  | .literal c => options.allowsInSet c
  | .range low high => options.allowsInSet low && options.allowsInSet high
  | .shorthand negated => options.allowsShorthand negated
  | .named negated => if options.unicode then !options.ignoreCase else !negated
  | .bracketed negated inner => inner.isSupported options && (options.unicode || !negated)
  | .union sets => CharacterSet.areSupported options sets
  | .operation left right => left.isSupported options && right.isSupported options

def CharacterSet.areSupported (options : Options) : List CharacterSet → Bool
  | [] => true
  | set :: sets => set.isSupported options && CharacterSet.areSupported options sets

end

/-- The options behind a part that can be searched for, if it can. -/
def guardWith (options : Options) (supported : Bool) : Option Options :=
  if supported then some options else none

mutual

/-- The options behind a regular expression, from those in front of it; `none` if it cannot be
searched for. -/
def optionsBehind (options : Options) : Regex → Option Options
  | .empty => some options
  | .literal c => guardWith options (options.allows c)
  | .dot => guardWith options options.unicode
  | .anchor => some options
  | .wordBoundary => guardWith options (!options.unicode)
  | .shorthand negated => guardWith options (options.allowsShorthand negated)
  | .bracketed negated inner =>
    guardWith options (inner.isSupported options && (options.unicode || !negated))
  | .switches changes => some (options.apply changes)
  | .repetition inner => inner.optionsBehind options
  | .group changes inner => (inner.optionsBehind (options.apply changes)).map fun _ => options
  | .sequence parts => optionsBehindAll options parts
  | .alternatives branches => optionsBehindAll options branches

def optionsBehindAll (options : Options) : List Regex → Option Options
  | [] => some options
  | regex :: rest =>
    match regex.optionsBehind options with
    | some options => optionsBehindAll options rest
    | none => none

end

def depthLimit : Nat := 250

/-- Whether a search for a regular expression can be set up. -/
def isSupported (regex : Regex) : Bool :=
  regex.depth ≤ depthLimit && (regex.optionsBehind .initial).isSome

end CopyrightHeader.Regex

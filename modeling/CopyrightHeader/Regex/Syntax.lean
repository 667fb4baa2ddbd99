/-! Regular expressions as trees. -/

set_option autoImplicit false

namespace CopyrightHeader

namespace Regex

abbrev Switches := List (Char × Bool)

def Switches.state? (switches : Switches) (letter : Char) : Option Bool :=
  (switches.find? fun (other, _) => other = letter).map (·.2)

/-- A character that stands for itself. -/
structure Literal where
  char : Char
  /-- Whether it is written as a byte, by two hexadecimal digits. -/
  isByte : Bool
  deriving DecidableEq, Repr

/-- What stands between the brackets of a class. -/
inductive CharacterSet where
  | literal (literal : Literal)
  | range (low high : Literal)
  /-- The digits, the spaces or the characters of words, or all but these. -/
  | shorthand (negated : Bool)
  /-- A set of ASCII characters with a name. -/
  | named (negated : Bool)
  | bracketed (negated : Bool) (inner : CharacterSet)
  | union (sets : List CharacterSet)
  /-- An intersection or a difference. -/
  | operation (left right : CharacterSet)

end Regex

inductive Regex where
  | empty
  | literal (literal : Regex.Literal)
  /-- Any character but a line feed, unless an option lets that in. -/
  | dot
  /-- An end of the text or of a line. -/
  | anchor
  | wordBoundary
  /-- The digits, the spaces or the characters of words, or all but these. -/
  | shorthand (negated : Bool)
  | bracketed (negated : Bool) (inner : Regex.CharacterSet)
  | switches (switches : Regex.Switches)
  | repetition (inner : Regex)
  /-- A group; the options that it switches are as before behind it. -/
  | group (switches : Regex.Switches) (inner : Regex)
  | sequence (parts : List Regex)
  | alternatives (branches : List Regex)

namespace Regex

/-- Sets side by side are united. -/
def CharacterSet.ofSets : List CharacterSet → CharacterSet
  | [set] => set
  | sets => .union sets

/-- Parts one behind the other; a single part stands alone. -/
def ofParts : List Regex → Regex
  | [] => .empty
  | [part] => part
  | parts => .sequence parts

def ofBranches : List Regex → Regex
  | [branch] => branch
  | branches => .alternatives branches

mutual

def CharacterSet.depth : CharacterSet → Nat
  | .literal _ => 0
  | .range _ _ => 0
  | .shorthand _ => 0
  | .named _ => 0
  | .bracketed _ inner => inner.depth + 1
  | .union [] => 0
  | .union sets => CharacterSet.depthOfAll sets + 1
  | .operation left right => max left.depth right.depth + 1

def CharacterSet.depthOfAll : List CharacterSet → Nat
  | [] => 0
  | set :: sets => max set.depth (CharacterSet.depthOfAll sets)

end

mutual

/-- How deep groups, repetitions, sequences, alternatives and sets are nested. -/
def depth : Regex → Nat
  | .empty => 0
  | .literal _ => 0
  | .dot => 0
  | .anchor => 0
  | .wordBoundary => 0
  | .shorthand _ => 0
  | .bracketed _ inner => inner.depth + 1
  | .switches _ => 0
  | .repetition inner => inner.depth + 1
  | .group _ inner => inner.depth + 1
  | .sequence parts => depthOfAll parts + 1
  | .alternatives branches => depthOfAll branches + 1

def depthOfAll : List Regex → Nat
  | [] => 0
  | regex :: rest => max regex.depth (depthOfAll rest)

end

end Regex

end CopyrightHeader

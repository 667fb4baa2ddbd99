import CopyrightHeader.Regex.Syntax
import CopyrightHeader.Text.Alphanumeric
import CopyrightHeader.Text.Hexadecimal
import CopyrightHeader.Text.Whitespace

/-! Reading a regular expression from its text.

The text is cut into tokens, and the tokens are put together group by group. While the option `x`
is on, white space and remarks are passed over. Counted repetitions, properties of characters and
looking ahead or behind are not known.
-/

set_option autoImplicit false

namespace CopyrightHeader.Regex

/-- Skips white space and remarks, which reach from `#` to the end of the line. -/
def skipRemarks : (inside : Bool) → List Char → List Char
  | _, [] => []
  | true, c :: rest => skipRemarks (c ≠ '\n') rest
  | false, c :: rest =>
    if Text.isWhitespace c then skipRemarks false rest
    else if c = '#' then skipRemarks true rest
    else c :: rest

def skipSpace (spaced : Bool) (text : List Char) : List Char :=
  if spaced then skipRemarks false text else text

/-! ## Characters -/

/-- As many hexadecimal digits as are asked for, and what follows them. -/
def hexDigits (spaced : Bool) : (count : Nat) → List Char → Option (List Char × List Char)
  | 0, text => some ([], text)
  | count + 1, text =>
    match skipSpace spaced text with
    | [] => none
    | c :: rest =>
      if (Text.hexDigit? c).isSome then
        (hexDigits spaced count rest).map fun (digits, rest) => (c :: digits, rest)
      else none

/-- A character by the digits of its code. -/
def coded (spaced : Bool) (count : Nat) (text : List Char) : Option (Regex × List Char) := do
  let (digits, rest) ← hexDigits spaced count text
  let c ← Text.codePoint count digits
  return (.literal ⟨c, count = 2⟩, rest)

/-- Whether a backslash makes a character stand for itself. -/
def isEscapable (c : Char) : Bool := c.toNat < 128 && !c.isAlphanum

/-- What the text behind a backslash stands for, and what follows it. -/
def escaped (spaced : Bool) : List Char → Option (Regex × List Char)
  | [] => none
  | c :: rest =>
    match c with
    | 'a' => some (.literal ⟨'\x07', false⟩, rest)
    | 'f' => some (.literal ⟨'\x0c', false⟩, rest)
    | 't' => some (.literal ⟨'\t', false⟩, rest)
    | 'n' => some (.literal ⟨'\n', false⟩, rest)
    | 'r' => some (.literal ⟨'\r', false⟩, rest)
    | 'v' => some (.literal ⟨'\x0b', false⟩, rest)
    | 'x' => coded spaced 2 rest
    | 'u' => coded spaced 4 rest
    | 'U' => coded spaced 8 rest
    | 'A' => some (.anchor, rest)
    | 'z' => some (.anchor, rest)
    | _ =>
      if c = 'b' || c = 'B' || c = '<' || c = '>' then some (.wordBoundary, rest)
      else if c = 'd' || c = 's' || c = 'w' then some (.shorthand false, rest)
      else if c = 'D' || c = 'S' || c = 'W' then some (.shorthand true, rest)
      else if isEscapable c then some (.literal ⟨c, false⟩, rest)
      else none

/-! ## Classes -/

def setNames : List String :=
  ["alnum", "alpha", "ascii", "blank", "cntrl", "digit", "graph", "lower", "print", "punct",
    "space", "upper", "word", "xdigit"]

/-- Whether the name behind a bracket is that of all other characters, and what follows it. -/
def namedSet : List Char → Option (Bool × List Char)
  | ':' :: text =>
    let negated := text.head? = some '^'
    let text := if negated then text.tail else text
    let name := text.takeWhile (· ≠ ':')
    match text.drop name.length with
    | ':' :: ']' :: rest =>
      if setNames.contains (String.ofList name) then some (negated, rest) else none
    | _ => none
  | _ => none

/-- The character behind a hyphen. Of remarks only the mark at their start is passed over. -/
def peek (spaced : Bool) (text : List Char) : Option Char :=
  if spaced then
    match text.dropWhile Text.isWhitespace with
    | '#' :: rest => (rest.dropWhile Text.isWhitespace).head?
    | rest => rest.head?
  else text.head?

def setCharacter (spaced : Bool) : List Char → Option (Regex × List Char)
  | [] => none
  | '\\' :: rest => escaped spaced rest
  | c :: rest => some (.literal ⟨c, false⟩, rest)

/-- What stands alone in a class. -/
def CharacterSet.ofRegex? : Regex → Option CharacterSet
  | .literal c => some (.literal c)
  | .shorthand negated => some (.shorthand negated)
  | _ => none

/-- The characters between two. -/
def CharacterSet.ofEnds? : Regex → Regex → Option CharacterSet
  | .literal low, .literal high => if low.char ≤ high.char then some (.range low high) else none
  | _, _ => none

/-- A character of a class, or all between two of them. -/
def setItem (spaced : Bool) (text : List Char) : Option (CharacterSet × List Char) := do
  let (first, rest) ← setCharacter spaced text
  match skipSpace spaced rest with
  | '-' :: behind =>
    let next := peek spaced behind
    if next = some ']' || next = some '-' then
      return (← CharacterSet.ofRegex? first, '-' :: behind)
    else
      let (last, rest) ← setCharacter spaced (skipSpace spaced behind)
      return (← CharacterSet.ofEnds? first last, rest)
  | rest => return (← CharacterSet.ofRegex? first, rest)

/-- The sets that have been read, last first, at the right of an operation if there is a left. -/
def CharacterSet.join (left : Option CharacterSet) (sets : List CharacterSet) : CharacterSet :=
  let right := ofSets sets.reverse
  left.elim right fun left => .operation left right

/-- Whether a class is negated, and what follows the sign. -/
def afterCaret (spaced : Bool) (text : List Char) : Bool × List Char :=
  match skipSpace spaced text with
  | '^' :: rest => (true, rest)
  | rest => (false, rest)

/-- The rest of a class, up to its closing bracket, and what follows. While `fresh`, only hyphens
have been read; they stand for themselves, and so does a bracket in front of all else. -/
def setRest : (limit : Nat) → (spaced fresh : Bool) → (left : Option CharacterSet) →
    (sets : List CharacterSet) → List Char → Option (CharacterSet × List Char)
  | 0, _, _, _, _, _ => none
  | limit + 1, spaced, fresh, left, sets, text =>
    match skipSpace spaced text with
    | [] => none
    | c :: rest =>
      if fresh && (c = '-' || (c = ']' && sets.isEmpty)) then
        setRest limit spaced (c = '-') left (.literal ⟨c, false⟩ :: sets) rest
      else if c = ']' then some (CharacterSet.join left sets, rest)
      else if (c = '&' || c = '-' || c = '~') && rest.head? = some c then
        setRest limit spaced false (some (CharacterSet.join left sets)) [] rest.tail
      else if c = '[' then
        match namedSet rest with
        | some (negated, rest) => setRest limit spaced false left (.named negated :: sets) rest
        | none =>
          let (negated, rest) := afterCaret spaced rest
          match setRest limit spaced true none [] rest with
          | some (inner, rest) =>
            setRest limit spaced false left (.bracketed negated inner :: sets) rest
          | none => none
      else
        match setItem spaced (c :: rest) with
        | some (item, rest) => setRest limit spaced false left (item :: sets) rest
        | none => none

def bracketedSet (spaced : Bool) (text : List Char) : Option (Regex × List Char) :=
  let (negated, text) := afterCaret spaced text
  (setRest (text.length + 1) spaced true none [] text).map fun (inner, rest) =>
    (.bracketed negated inner, rest)

/-! ## Tokens -/

inductive Token where
  | atom (regex : Regex)
  | opening (name : Option (List Char)) (switches : Switches)
  | closing
  | switches (switches : Switches)
  | alternative
  | repetition

def Token.groupName? : Token → Option (List Char)
  | .opening groupName _ => groupName
  | _ => none

def isGroupName : List Char → Bool
  | [] => false
  | c :: rest =>
    (c = '_' || Text.isAlphabetic c) &&
      rest.all fun c => c = '_' || c = '.' || c = '[' || c = ']' || Text.isAlphanumeric c

/-- Whether letters name options, each once; a hyphen stands before those that are off. -/
def areSwitches (letters : List Char) : Bool :=
  letters.Nodup && letters.all (fun c => "-imsUuRx".toList.contains c) &&
    letters.getLast? ≠ some '-'

def Switches.ofLetters (letters : List Char) : Switches :=
  (letters.takeWhile (· ≠ '-')).map (·, true) ++
    (letters.dropWhile (· ≠ '-')).tail.map (·, false)

/-- A group with a name, by the text that begins with the name. -/
def namedGroup (text : List Char) : Option (Token × List Char) :=
  let name := text.takeWhile (· ≠ '>')
  match text.drop name.length with
  | '>' :: rest => if isGroupName name then some (.opening (some name) [], rest) else none
  | _ => none

def groupToken : List Char → Option (Token × List Char)
  | '?' :: 'P' :: '<' :: rest => namedGroup rest
  | '?' :: '<' :: rest => namedGroup rest
  | '?' :: rest =>
    let letters := rest.takeWhile fun c => c ≠ ':' && c ≠ ')'
    let switches := Switches.ofLetters letters
    match rest.drop letters.length with
    | ':' :: rest => if areSwitches letters then some (.opening none switches, rest) else none
    | ')' :: rest =>
      if letters ≠ [] && areSwitches letters then some (.switches switches, rest) else none
    | _ => none
  | rest => some (.opening none [], rest)

def token (spaced : Bool) : List Char → Option (Token × List Char)
  | [] => none
  | c :: rest =>
    match c with
    | '(' => groupToken (skipSpace spaced rest)
    | ')' => some (.closing, rest)
    | '|' => some (.alternative, rest)
    | '[' => (bracketedSet spaced rest).map fun (regex, rest) => (.atom regex, rest)
    | '\\' => (escaped spaced rest).map fun (regex, rest) => (.atom regex, rest)
    | '.' => some (.atom .dot, rest)
    | '^' => some (.atom .anchor, rest)
    | '$' => some (.atom .anchor, rest)
    | _ =>
      if c = '?' || c = '*' || c = '+' then
        some (.repetition, if rest.head? = some '?' then rest.tail else rest)
      else if c = '\x7b' then none
      else some (.atom (.literal ⟨c, false⟩), rest)

/-- The tokens of a text. `outer` says for each open group whether spaces are skipped around it. -/
def tokens : (limit : Nat) → (outer : List Bool) → (spaced : Bool) → List Char →
    Option (List Token)
  | 0, _, _, _ => none
  | limit + 1, outer, spaced, text =>
    match skipSpace spaced text with
    | [] => some []
    | text =>
      match token spaced text with
      | none => none
      | some (.opening name changes, rest) =>
        (tokens limit (spaced :: outer) ((changes.state? 'x').getD spaced) rest).map
          (.opening name changes :: ·)
      | some (.closing, rest) =>
        (tokens limit outer.tail (outer.headD spaced) rest).map (.closing :: ·)
      | some (.switches changes, rest) =>
        (tokens limit outer ((changes.state? 'x').getD spaced) rest).map (.switches changes :: ·)
      | some (other, rest) => (tokens limit outer spaced rest).map (other :: ·)

/-! ## Groups -/

/-- What has been read of a group: its branches and the parts of the branch at hand, last first. -/
structure Partial where
  branches : List Regex
  parts : List Regex

namespace Partial

def empty : Partial := ⟨[], []⟩

def push (regex : Regex) (group : Partial) : Partial :=
  { group with parts := regex :: group.parts }

def nextBranch (group : Partial) : Partial :=
  ⟨ofParts group.parts.reverse :: group.branches, []⟩

/-- Repeats the last part. There has to be one, and options cannot be repeated. -/
def repeatLast? (group : Partial) : Option Partial :=
  match group.parts with
  | [] => none
  | .switches _ :: _ => none
  | part :: parts => some { group with parts := .repetition part :: parts }

def toRegex (group : Partial) : Regex := ofBranches group.nextBranch.branches.reverse

end Partial

/-- Puts tokens together. `opened` holds the open groups, each with what comes before it. -/
def assemble : (opened : List (Partial × Switches)) → Partial → List Token → Option Regex
  | [], current, [] => some current.toRegex
  | _ :: _, _, [] => none
  | opened, current, .atom regex :: rest => assemble opened (current.push regex) rest
  | opened, current, .switches changes :: rest =>
    assemble opened (current.push (.switches changes)) rest
  | opened, current, .alternative :: rest => assemble opened current.nextBranch rest
  | opened, current, .repetition :: rest =>
    match current.repeatLast? with
    | some current => assemble opened current rest
    | none => none
  | opened, current, .opening _ changes :: rest =>
    assemble ((current, changes) :: opened) .empty rest
  | [], _, .closing :: _ => none
  | (around, changes) :: opened, current, .closing :: rest =>
    assemble opened (around.push (.group changes current.toRegex)) rest

def ofText? (text : List Char) : Option Regex :=
  match tokens (text.length + 1) [] false text with
  | some tokens =>
    if (tokens.filterMap Token.groupName?).Nodup then assemble [] .empty tokens else none
  | none => none

end CopyrightHeader.Regex

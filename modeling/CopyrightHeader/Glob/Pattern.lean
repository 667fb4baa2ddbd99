/-! Shell-style patterns for names: `?`, `*`, `**` and bracketed classes.

A separator is not special to `?`, `*` or a class. Two stars stand for whole directories and so
have to fill a component of their own; three or more stars, and a bracket that no other closes,
are refused. Braces and backslashes mean themselves.
-/

set_option autoImplicit false

namespace CopyrightHeader.Glob

inductive ClassItem where
  | single (c : Char)
  | range (low high : Char)
  deriving DecidableEq, Repr

def ClassItem.accepts : ClassItem → Char → Bool
  | .single member, c => c = member
  | .range low high, c => low ≤ c && c ≤ high

inductive Token where
  | literal (c : Char)
  | anyChar
  | within (items : List ClassItem)
  | outside (items : List ClassItem)
  /-- Any run of characters, the empty one included. -/
  | anyText
  /-- Any run of whole directories, or all the rest. -/
  | anyDirectories
  deriving DecidableEq, Repr

inductive Fault where
  | tooManyStars
  | strayDirectoryStars
  | unclosedClass
  deriving DecidableEq, Repr

/-- Where and why a text is no pattern; the position counts characters. -/
structure PatternError where
  position : Nat
  fault : Fault
  deriving DecidableEq, Repr

def Fault.message : Fault → String
  | .tooManyStars => "wildcards are either regular `*` or recursive `**`"
  | .strayDirectoryStars => "recursive wildcards must form a single path component"
  | .unclosedClass => "invalid range pattern"

def PatternError.message (error : PatternError) : String :=
  s!"Pattern syntax error near position {error.position}: {error.fault.message}"

/-- The members of a class. A dash between two members makes a range; at either end it means
itself. -/
def classItems : List Char → List ClassItem
  | low :: '-' :: high :: rest => .range low high :: classItems rest
  | c :: rest => .single c :: classItems rest
  | [] => []

/-- What stands in front of the first closing bracket and behind it. -/
def splitAtBracket : List Char → Option (List Char × List Char)
  | [] => none
  | c :: rest =>
    if c = ']' then some ([], rest)
    else (splitAtBracket rest).map fun (inside, after) => (c :: inside, after)

theorem length_of_splitAtBracket {text inside after : List Char}
    (h : splitAtBracket text = some (inside, after)) : after.length < text.length := by
  induction text generalizing inside with
  | nil => simp [splitAtBracket] at h
  | cons c rest ih =>
    rw [splitAtBracket] at h
    split at h
    · simp only [Option.some.injEq, Prod.mk.injEq] at h
      simp [← h.2]
    · obtain ⟨⟨inside', after'⟩, found, same⟩ := Option.map_eq_some_iff.1 h
      simp only [Prod.mk.injEq] at same
      have := ih (same.2 ▸ found)
      simp only [List.length_cons]
      omega

/-- Reads a class behind its opening bracket. The first member may be a closing bracket. -/
def readClass : List Char → Option (Token × List Char)
  | '!' :: first :: rest =>
    (splitAtBracket rest).map fun (inside, after) =>
      (.outside (classItems (first :: inside)), after)
  | '!' :: [] => none
  | first :: rest =>
    (splitAtBracket rest).map fun (inside, after) => (.within (classItems (first :: inside)), after)
  | [] => none

theorem length_of_readClass {text after : List Char} {token : Token}
    (h : readClass text = some (token, after)) : after.length < text.length := by
  unfold readClass at h
  split at h
  · obtain ⟨⟨inside, after'⟩, found, same⟩ := Option.map_eq_some_iff.1 h
    simp only [Prod.mk.injEq] at same
    have := length_of_splitAtBracket (same.2 ▸ found)
    simp only [List.length_cons]
    omega
  · cases h
  · obtain ⟨⟨inside, after'⟩, found, same⟩ := Option.map_eq_some_iff.1 h
    simp only [Prod.mk.injEq] at same
    have := length_of_splitAtBracket (same.2 ▸ found)
    simp only [List.length_cons]
    omega
  · cases h

/-- Reads the tokens from `position` on; `before` is the character in front. -/
def readTokens (position : Nat) (before : Option Char) (text : List Char) :
    Except PatternError (List Token) :=
  match text with
  | [] => .ok []
  | '?' :: rest => (Token.anyChar :: ·) <$> readTokens (position + 1) (some '?') rest
  | '*' :: '*' :: '*' :: _ => .error ⟨position + 2, .tooManyStars⟩
  | '*' :: '*' :: rest =>
    if before = none ∨ before = some '/' then
      match rest with
      | [] => .ok [.anyDirectories]
      | '/' :: rest => (Token.anyDirectories :: ·) <$> readTokens (position + 3) (some '/') rest
      | _ :: _ => .error ⟨position + 2, .strayDirectoryStars⟩
    else .error ⟨position - 1, .strayDirectoryStars⟩
  | '*' :: rest => (Token.anyText :: ·) <$> readTokens (position + 1) (some '*') rest
  | '[' :: rest =>
    match h : readClass rest with
    | none => .error ⟨position, .unclosedClass⟩
    | some (token, after) =>
      (token :: ·) <$> readTokens (position + 1 + (rest.length - after.length)) (some ']') after
  | c :: rest => (Token.literal c :: ·) <$> readTokens (position + 1) (some c) rest
  termination_by text.length
  decreasing_by
    all_goals simp only [List.length_cons]
    all_goals first
      | omega
      | have := length_of_readClass h; omega

/-- A text and the pattern it denotes. -/
structure Pattern where
  source : String
  tokens : List Token
  denotes : readTokens 0 none source.toList = .ok tokens
  deriving DecidableEq, Repr

namespace Pattern

def ofString (source : String) : Except PatternError Pattern :=
  match denotes : readTokens 0 none source.toList with
  | .ok tokens => .ok ⟨source, tokens, denotes⟩
  | .error error => .error error

theorem eq_of_source {p q : Pattern} (same : p.source = q.source) : p = q := by
  obtain ⟨source, tokens, denotes⟩ := p
  obtain ⟨_, other, denotes'⟩ := q
  subst same
  have tokensSame : tokens = other := Except.ok.inj (denotes.symm.trans denotes')
  subst tokensSame
  rfl

end Pattern

end CopyrightHeader.Glob

import CopyrightHeader.Glob.Pattern

/-! Whether a pattern matches a name.

A run of stars is tried from short to long. An attempt that used up the whole name ends the
search: a longer run leaves still less for the tokens behind it.
-/

set_option autoImplicit false

namespace CopyrightHeader.Glob

/-- How an attempt to match ended. -/
inductive Outcome where
  | matched
  | mismatch
  /-- The name ran out before the tokens did. -/
  | exhausted
  deriving DecidableEq, Repr

/-- Tokens that stand for exactly one character. -/
def Token.accepts : Token → Char → Bool
  | .literal member, c => c = member
  | .anyChar, _ => true
  | .within items, c => items.any (·.accepts c)
  | .outside items, c => !items.any (·.accepts c)
  | .anyText, _ => false
  | .anyDirectories, _ => false

/-- Tries `attempt` behind each character at which a run may stop and, at last, behind all. -/
def extend (mayStop : Char → Bool) (attempt : List Char → Outcome) : List Char → Outcome
  | [] => attempt []
  | c :: rest =>
    if mayStop c then
      match attempt rest with
      | .mismatch => extend mayStop attempt rest
      | outcome => outcome
    else extend mayStop attempt rest

def matchTokens : List Token → List Char → Outcome
  | [], [] => .matched
  | [], _ :: _ => .mismatch
  | .anyText :: tokens, text =>
    match matchTokens tokens text with
    | .mismatch => extend (fun _ => true) (matchTokens tokens) text
    | outcome => outcome
  | .anyDirectories :: tokens, text =>
    match matchTokens tokens text with
    | .mismatch => extend (· = '/') (matchTokens tokens) text
    | outcome => outcome
  | _ :: _, [] => .exhausted
  | token :: tokens, c :: text => if token.accepts c then matchTokens tokens text else .mismatch

def Pattern.accepts (pattern : Pattern) (name : String) : Bool :=
  matchTokens pattern.tokens name.toList = .matched

end CopyrightHeader.Glob

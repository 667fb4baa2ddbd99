import CopyrightHeader.Glob.Matching

/-! What a rule asks of a file name, and when one rule leaves nothing to another. -/

set_option autoImplicit false

namespace CopyrightHeader

inductive NameMatcher where
  | suffix (ending : String)
  | exact (name : String)
  | glob (pattern : Glob.Pattern)
  deriving DecidableEq, Repr

namespace NameMatcher

def accepts : NameMatcher → String → Bool
  | .suffix ending, name => ending.toList.isSuffixOf name.toList
  | .exact expected, name => name = expected
  | .glob pattern, name => pattern.accepts name

/-- Whether it is plain that `earlier` matches all that `later` matches. A pattern is compared
with other patterns by its text alone. -/
def shadows : (earlier later : NameMatcher) → Bool
  | .suffix earlier, .suffix later => earlier.toList.isSuffixOf later.toList
  | earlier, .exact name => earlier.accepts name
  | .glob earlier, .glob later => earlier.source = later.source
  | _, _ => false

/-- The matcher that a configured file name stands for: a pattern if it holds a wildcard. -/
def ofFileName (key : String) : Except Glob.PatternError NameMatcher :=
  if key.toList.any (fun c => c = '*' || c = '?' || c = '[') then
    (Glob.Pattern.ofString key).map .glob
  else .ok (.exact key)

end NameMatcher

end CopyrightHeader

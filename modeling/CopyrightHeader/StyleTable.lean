import CopyrightHeader.CommentStyle
import CopyrightHeader.NameMatcher
import CopyrightHeader.Notice

/-! Ordered rules that give file names their comment style. The first rule that matches decides;
a file that no rule matches has no style and is left alone.
-/

set_option autoImplicit false

namespace CopyrightHeader

structure StyleRule where
  matcher : NameMatcher
  style : CommentStyle
  deriving DecidableEq, Repr

structure StyleTable where
  rules : List StyleRule
  deriving DecidableEq, Repr

namespace StyleTable

/-- C-style for `.cpp`, `.c` and `.h`; shell-style for `BUILD` and `.py`. -/
def builtin : StyleTable :=
  ⟨[⟨.suffix ".cpp", .c⟩, ⟨.suffix ".c", .c⟩, ⟨.suffix ".h", .c⟩,
    ⟨.exact "BUILD", .shell⟩, ⟨.suffix ".py", .shell⟩]⟩

def resolve (table : StyleTable) (name : String) : Option CommentStyle :=
  (table.rules.find? (·.matcher.accepts name)).map (·.style)

/-- The rules that no rule of `earlier`, nor an earlier one of their own list, shadows. -/
def unshadowed (earlier : List StyleRule) : List StyleRule → List StyleRule
  | [] => []
  | rule :: rest =>
    if earlier.any (·.matcher.shadows rule.matcher) then unshadowed (rule :: earlier) rest
    else rule :: unshadowed (rule :: earlier) rest

/-- The table without the rules that an earlier one shadows. -/
def prune (table : StyleTable) : StyleTable := ⟨unshadowed [] table.rules⟩

/-- A notice line that a style would write as its own closing line, so that the next run would end
the header there. -/
structure Conflict where
  style : String
  line : String
  deriving DecidableEq, Repr

def Conflict.message (conflict : Conflict) : String :=
  s!"Notice line '{conflict.line}' is written by {conflict.style} exactly as its end marker; " ++
    "the header could not be replaced on later runs"

/-- The first line of the notice that `style` would write as its closing line. -/
def conflictOf (notice : Notice) (style : CommentStyle) : Option Conflict :=
  (notice.lines.find? fun line => style.formatLine line = style.closing).map (⟨style.name, ·⟩)

/-- The first conflict of the notice with a rule that can still be reached. -/
def conflict? (table : StyleTable) (notice : Notice) : Option Conflict :=
  table.prune.rules.findSome? fun rule => conflictOf notice rule.style

end StyleTable

end CopyrightHeader

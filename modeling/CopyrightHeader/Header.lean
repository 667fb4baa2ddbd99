import CopyrightHeader.CommentStyle
import CopyrightHeader.Notice
import CopyrightHeader.Text

/-! The header at the top of a text: strip the one that is there, render a new one.

A header starts only at the first line, which has to equal the opening marker, and runs to the
first later line that equals the closing marker. One empty line behind it belongs to it. All else
is body and is kept as it stands, terminators included.
-/

set_option autoImplicit false

namespace CopyrightHeader.Header

structure Unterminated where
  opening : String
  closing : String
  deriving DecidableEq, Repr

def Unterminated.message (fault : Unterminated) : String :=
  s!"header opened by '{fault.opening}' is never closed by '{fault.closing}'"

def dropSeparator : List (List Char) → List (List Char)
  | [] => []
  | line :: rest => if Text.lineText line = [] then rest else line :: rest

/-- The lines behind the first one that equals `closing` and behind the separator. -/
def afterClosing (closing : List Char) : List (List Char) → Option (List (List Char))
  | [] => none
  | line :: rest =>
    if Text.lineText line = closing then some (dropSeparator rest) else afterClosing closing rest

/-- The lines of the body; `none` if a header is opened and never closed. -/
def bodyLines (opening closing : List Char) : List (List Char) → Option (List (List Char))
  | [] => some []
  | first :: rest =>
    if Text.lineText first = opening then afterClosing closing rest else some (first :: rest)

/-- What follows the header of `content`; all of `content` if it has none. -/
def strip (style : CommentStyle) (content : String) : Except Unterminated String :=
  match bodyLines style.opening.toList style.closing.toList (Text.splitLines content.toList) with
  | some lines => .ok (String.ofList lines.flatten)
  | none => .error ⟨style.opening, style.closing⟩

/-- The lines of a header without their terminators, its separator apart. -/
def renderedLines (style : CommentStyle) (notice : Notice) : List String :=
  style.opening :: notice.lines.map style.formatLine ++ [style.closing]

/-- The framed notice and the empty line behind it. -/
def render (style : CommentStyle) (notice : Notice) : String :=
  String.ofList ((renderedLines style notice ++ [""]).flatMap fun line => line.toList ++ ['\n'])

def update (style : CommentStyle) (notice : Notice) (content : String) :
    Except Unterminated String :=
  (strip style content).map (render style notice ++ ·)

theorem update_eq_ok {style : CommentStyle} {notice : Notice} {content output : String} :
    update style notice content = .ok output ↔
      ∃ body, strip style content = .ok body ∧ output = render style notice ++ body := by
  unfold update
  cases strip style content with
  | error e => simp [Except.map]
  | ok body => simp [Except.map, eq_comm]

theorem strip_error {style : CommentStyle} {content : String} {fault : Unterminated}
    (h : strip style content = .error fault) : fault = ⟨style.opening, style.closing⟩ := by
  unfold strip at h
  split at h
  · cases h
  · exact (Except.error.inj h).symm

end CopyrightHeader.Header

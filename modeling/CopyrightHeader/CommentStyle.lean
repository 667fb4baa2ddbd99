/-! How a header is framed in one kind of file. -/

set_option autoImplicit false

namespace CopyrightHeader

/-- The framing of a header: an opening line, notice lines behind a common lead, a closing line. -/
structure CommentStyle where
  /-- Shown in progress output. -/
  name : String
  /-- First line of a header, and how an existing header is recognised. -/
  opening : String
  /-- Stands in front of every notice line. -/
  lead : String
  /-- Last line of a header. -/
  closing : String
  deriving DecidableEq, Repr

namespace CommentStyle

/-- Block comments, as in C and C++ sources. -/
def c : CommentStyle := ⟨"C-style", "/*-", " *", " */"⟩

/-- Line comments, as in scripts and build files. -/
def shell : CommentStyle := ⟨"Shell-style", "#-", "#", "#"⟩

/-- A notice line as the style writes it. An empty line becomes the bare lead, so that no line
ends in a blank. -/
def formatLine (style : CommentStyle) (line : String) : String :=
  if line = "" then style.lead else style.lead ++ " " ++ line

@[simp] theorem formatLine_empty (style : CommentStyle) : style.formatLine "" = style.lead := rfl

end CommentStyle

end CopyrightHeader

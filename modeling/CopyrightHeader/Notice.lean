/-! The copyright notice: an ordered list of lines without comment framing.

A line may hold the placeholder for the year. Rendering fills it in, from left to right and
without looking again at what it has filled in.
-/

set_option autoImplicit false

namespace CopyrightHeader

/-- The lines of a notice, each without a terminator. -/
structure Notice where
  lines : List String
  deriving DecidableEq, Repr

namespace Notice

def default : Notice :=
  ⟨["Copyright (c) 2016-2017 Doug Rabson", "All rights reserved."]⟩

/-- What stands for the year in a line. -/
def placeholder : List Char := "\x7b\x7byear\x7d\x7d".toList

/-- Replaces the occurrences of `pattern` that a scan from the left meets; `skip` characters of an
occurrence already replaced are still to be passed over. -/
def replaceFrom (pattern replacement : List Char) : Nat → List Char → List Char
  | _, [] => []
  | skip + 1, _ :: rest => replaceFrom pattern replacement skip rest
  | 0, c :: rest =>
    if pattern.isPrefixOf (c :: rest) then
      replacement ++ replaceFrom pattern replacement (pattern.length - 1) rest
    else c :: replaceFrom pattern replacement 0 rest

def renderLine (year : String) (line : String) : String :=
  String.ofList (replaceFrom placeholder year.toList 0 line.toList)

def render (notice : Notice) (year : String) : Notice :=
  ⟨notice.lines.map (renderLine year)⟩

@[simp] theorem length_render (notice : Notice) (year : String) :
    (notice.render year).lines.length = notice.lines.length := by
  simp [render]

end Notice

end CopyrightHeader

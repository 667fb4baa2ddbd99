/-! Physical lines of a text.

A line ends after a line feed and keeps its terminator, so the lines of a text join back to the
text itself. What a line says is its text without a final `\n` or `\r\n`.
-/

set_option autoImplicit false

namespace CopyrightHeader.Text

def splitLines : List Char → List (List Char)
  | [] => []
  | c :: rest =>
    if c = '\n' then ['\n'] :: splitLines rest
    else
      match splitLines rest with
      | [] => [[c]]
      | line :: lines => (c :: line) :: lines

theorem flatten_splitLines (text : List Char) : (splitLines text).flatten = text := by
  induction text with
  | nil => rfl
  | cons c rest ih =>
    rw [splitLines]
    split
    · next h => simp [h, ih]
    · split
      · next h => rw [h] at ih; simp [← ih]
      · next h => rw [h] at ih; simpa using ih

theorem splitLines_eq_nil {text : List Char} : splitLines text = [] ↔ text = [] := by
  cases text with
  | nil => simp [splitLines]
  | cons c rest =>
    rw [splitLines]
    split
    · simp
    · split <;> simp

/-- Removes `c` from the end, if it is there. -/
def dropFinal (c : Char) (text : List Char) : List Char :=
  if text.getLast? = some c then text.dropLast else text

/-- What a line says: the line without its terminator. A carriage return counts as part of the
terminator only in front of a line feed. -/
def lineText (line : List Char) : List Char :=
  if line.getLast? = some '\n' then dropFinal '\r' line.dropLast else line

@[simp] theorem lineText_nil : lineText [] = [] := rfl

theorem lineText_append_newline (text : List Char) :
    lineText (text ++ ['\n']) = dropFinal '\r' text := by
  simp [lineText]

/-- A text that reads back as it was when it is written as a line of its own. -/
def LineSafe (text : List Char) : Prop :=
  '\n' ∉ text ∧ text.getLast? ≠ some '\r'

instance (text : List Char) : Decidable (LineSafe text) :=
  inferInstanceAs (Decidable (_ ∧ _))

theorem lineText_of_lineSafe {text : List Char} (safe : LineSafe text) :
    lineText (text ++ ['\n']) = text := by
  rw [lineText_append_newline, dropFinal, if_neg safe.2]

theorem splitLines_line_append {line : List Char} (rest : List Char) (safe : '\n' ∉ line) :
    splitLines (line ++ '\n' :: rest) = (line ++ ['\n']) :: splitLines rest := by
  induction line with
  | nil => simp [splitLines]
  | cons c line ih =>
    have hc : c ≠ '\n' := fun h => safe (by simp [h])
    have hline : '\n' ∉ line := fun h => safe (List.mem_cons_of_mem _ h)
    rw [List.cons_append, splitLines, if_neg hc, ih hline]
    rfl

end CopyrightHeader.Text

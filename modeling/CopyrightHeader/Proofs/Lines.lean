import CopyrightHeader.Text

/-! The physical lines of texts that are put together.

A text with a line feed behind it splits into lines of its own, whatever follows. It is one line
that says the text exactly when the text is line-safe.
-/

set_option autoImplicit false

namespace CopyrightHeader.Text

/-- The physical lines of a text that is written with a line feed behind it. -/
def writtenLines (text : List Char) : List (List Char) := splitLines (text ++ ['\n'])

theorem splitLines_append (text rest : List Char) :
    splitLines (text ++ '\n' :: rest) = writtenLines text ++ splitLines rest := by
  unfold writtenLines
  induction text with
  | nil => rfl
  | cons c text ih =>
    by_cases feed : c = '\n'
    · simp only [List.cons_append, splitLines, if_pos feed, ih]
    · cases lines : splitLines (text ++ ['\n']) with
      | nil => simp [splitLines_eq_nil] at lines
      | cons first others =>
        rw [lines] at ih
        simp only [List.cons_append, splitLines, if_neg feed, ih, lines]

theorem splitLines_flatMap (texts : List (List Char)) (rest : List Char) :
    splitLines ((texts.flatMap fun text => text ++ ['\n']) ++ rest) =
      texts.flatMap writtenLines ++ splitLines rest := by
  induction texts with
  | nil => rfl
  | cons text texts ih =>
    have joined : ((text :: texts).flatMap fun text => text ++ ['\n']) ++ rest =
        text ++ '\n' :: ((texts.flatMap fun text => text ++ ['\n']) ++ rest) := by simp
    rw [joined, splitLines_append, ih, List.flatMap_cons, List.append_assoc]

theorem flatten_writtenLines (text : List Char) : (writtenLines text).flatten = text ++ ['\n'] :=
  flatten_splitLines _

theorem exists_writtenLines_eq_cons (text : List Char) :
    ∃ first others, writtenLines text = first :: others := by
  apply List.exists_cons_of_ne_nil
  intro none
  have joined := flatten_writtenLines text
  simp [none] at joined

/-- A line feed stands only at the end of a physical line, and no physical line is empty. -/
theorem shape_of_mem_splitLines {text line : List Char} (member : line ∈ splitLines text) :
    ∃ said, '\n' ∉ said ∧ (line = said ++ ['\n'] ∨ line = said ∧ said ≠ []) := by
  induction text generalizing line with
  | nil => simp [splitLines] at member
  | cons c rest ih =>
    rw [splitLines] at member
    split at member
    · rcases List.mem_cons.1 member with rfl | member
      · exact ⟨[], by simp, .inl rfl⟩
      · exact ih member
    · next notFeed =>
      -- Putting a character in front of the first line keeps its shape.
      have absent {said : List Char} (h : '\n' ∉ said) : '\n' ∉ c :: said := by
        simp [h, Ne.symm notFeed]
      split at member
      · rw [List.mem_singleton.1 member]
        exact ⟨[c], absent (by simp), .inr ⟨rfl, by simp⟩⟩
      · next first others lines =>
        rcases List.mem_cons.1 member with rfl | member
        · obtain ⟨said, free, rfl | ⟨rfl, -⟩⟩ := ih (lines ▸ List.mem_cons_self)
          · exact ⟨c :: said, absent free, .inl rfl⟩
          · exact ⟨c :: first, absent free, .inr ⟨rfl, by simp⟩⟩
        · exact ih (lines ▸ List.mem_cons_of_mem _ member)

theorem ne_nil_of_mem_splitLines {text line : List Char} (member : line ∈ splitLines text) :
    line ≠ [] := by
  obtain ⟨said, -, rfl | ⟨rfl, notEmpty⟩⟩ := shape_of_mem_splitLines member
  · simp
  · exact notEmpty

theorem mem_of_mem_dropFinal {c d : Char} {text : List Char} (member : d ∈ dropFinal c text) :
    d ∈ text := by
  unfold dropFinal at member
  split at member
  · exact (List.dropLast_sublist text).subset member
  · exact member

theorem newline_not_mem_lineText {text line : List Char} (member : line ∈ splitLines text) :
    '\n' ∉ lineText line := by
  obtain ⟨said, free, rfl | ⟨rfl, -⟩⟩ := shape_of_mem_splitLines member
  · rw [lineText_append_newline]
    exact fun h => free (mem_of_mem_dropFinal h)
  · have unterminated : line.getLast? ≠ some '\n' := fun h => free (List.mem_of_getLast? h)
    rwa [lineText, if_neg unterminated]

theorem writtenLines_of_newline_not_mem {text : List Char} (free : '\n' ∉ text) :
    writtenLines text = [text ++ ['\n']] :=
  splitLines_line_append [] free

theorem writtenLines_of_lineSafe {text : List Char} (safe : LineSafe text) :
    writtenLines text = [text ++ ['\n']] :=
  writtenLines_of_newline_not_mem safe.1

/-- Only a line-safe text is ever read back from the lines it is written as. -/
theorem lineSafe_of_lineText_eq {text line : List Char} (member : line ∈ writtenLines text)
    (same : lineText line = text) : LineSafe text := by
  have free : '\n' ∉ text := same ▸ newline_not_mem_lineText member
  refine ⟨free, fun final => ?_⟩
  rw [writtenLines_of_newline_not_mem free, List.mem_singleton] at member
  rw [member, lineText_append_newline, dropFinal, if_pos final] at same
  -- Dropping the carriage return makes the text shorter than it is.
  have shorter := congrArg List.length same
  have notEmpty : text ≠ [] := by rintro rfl; simp at final
  have := List.length_pos_iff.2 notEmpty
  simp only [List.length_dropLast] at shorter
  omega

theorem lineSafe_nil : LineSafe [] := by decide

end CopyrightHeader.Text

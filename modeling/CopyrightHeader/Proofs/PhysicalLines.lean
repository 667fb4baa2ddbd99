import CopyrightHeader.Proofs.Lines

/-! Physical lines, described apart from how a text is split.

A text has exactly one list of physical lines, and each of them says exactly one text. Splitting
finds that list, and the text of a line is what it says.
-/

set_option autoImplicit false

namespace CopyrightHeader.Text

/-- A physical line and what it says. -/
inductive Says : (line said : List Char) → Prop where
  | lineFeed {said : List Char} (free : '\n' ∉ said) (unreturned : said.getLast? ≠ some '\r') :
      Says (said ++ ['\n']) said
  | returnLineFeed {said : List Char} (free : '\n' ∉ said) : Says (said ++ ['\r', '\n']) said
  | unended {said : List Char} (free : '\n' ∉ said) (notEmpty : said ≠ []) : Says said said

/-- A text and its physical lines. Only the last of them may lack a line feed. -/
inductive HasLines : (text : List Char) → (lines : List (List Char)) → Prop where
  | nil : HasLines [] []
  | unended {line : List Char} (free : '\n' ∉ line) (notEmpty : line ≠ []) : HasLines line [line]
  | cons {line rest : List Char} {lines : List (List Char)} (free : '\n' ∉ line)
      (more : HasLines rest lines) : HasLines (line ++ '\n' :: rest) ((line ++ ['\n']) :: lines)

variable {text line said : List Char} {lines : List (List Char)}

theorem getLast?_ne_newline (free : '\n' ∉ line) : line.getLast? ≠ some '\n' :=
  fun final => free (List.mem_of_getLast? final)

/-! ## What a line says -/

theorem Says.lineText_eq (spoken : Says line said) : lineText line = said := by
  cases spoken with
  | lineFeed free unreturned => exact lineText_of_lineSafe ⟨free, unreturned⟩
  | returnLineFeed free =>
    have joined : said ++ ['\r', '\n'] = (said ++ ['\r']) ++ ['\n'] := by simp
    rw [joined, lineText_append_newline, dropFinal, if_pos (by simp), List.dropLast_concat]
  | unended free notEmpty => rw [lineText, if_neg (getLast?_ne_newline free)]

theorem says_lineText (member : line ∈ splitLines text) : Says line (lineText line) := by
  obtain ⟨said, free, rfl | ⟨rfl, notEmpty⟩⟩ := shape_of_mem_splitLines member
  · rw [lineText_append_newline, dropFinal]
    split
    · next final =>
      obtain ⟨front, rfl⟩ := List.getLast?_eq_some_iff.1 final
      have frontFree : '\n' ∉ front := fun h => free (List.mem_append_left _ h)
      rw [List.dropLast_concat, List.append_assoc]
      exact .returnLineFeed frontFree
    · next unreturned => exact .lineFeed free unreturned
  · rw [lineText, if_neg (getLast?_ne_newline free)]
    exact .unended free notEmpty

/-- A physical line says one text and no other. -/
theorem says_iff (member : line ∈ splitLines text) : Says line said ↔ lineText line = said := by
  constructor
  · exact Says.lineText_eq
  · rintro rfl
    exact says_lineText member

/-! ## The lines of a text -/

theorem splitLines_of_newline_not_mem (free : '\n' ∉ line) (notEmpty : line ≠ []) :
    splitLines line = [line] := by
  induction line with
  | nil => exact absurd rfl notEmpty
  | cons c rest ih =>
    have notFeed : c ≠ '\n' := fun same => free (by simp [same])
    have restFree : '\n' ∉ rest := fun h => free (List.mem_cons_of_mem _ h)
    rw [splitLines, if_neg notFeed]
    cases rest with
    | nil => rfl
    | cons next rest => rw [ih restFree (List.cons_ne_nil _ _)]

theorem splitLines_of_hasLines (has : HasLines text lines) : splitLines text = lines := by
  induction has with
  | nil => rfl
  | unended free notEmpty => exact splitLines_of_newline_not_mem free notEmpty
  | cons free more ih => rw [splitLines_line_append _ free, ih]

theorem HasLines.cons_of_ne {c : Char} {first : List Char} (notFeed : c ≠ '\n')
    (has : HasLines text (first :: lines)) : HasLines (c :: text) ((c :: first) :: lines) := by
  have free {line : List Char} (free : '\n' ∉ line) : '\n' ∉ c :: line := by
    simp [free, Ne.symm notFeed]
  cases has with
  | unended lineFree notEmpty => exact .unended (free lineFree) (List.cons_ne_nil _ _)
  | @cons line rest _ lineFree more => exact @HasLines.cons (c :: line) rest _ (free lineFree) more

theorem hasLines_splitLines (text : List Char) : HasLines text (splitLines text) := by
  induction text with
  | nil => exact .nil
  | cons c rest ih =>
    rw [splitLines]
    split
    · next feed =>
      subst feed
      exact @HasLines.cons [] rest _ (by simp) ih
    · next notFeed =>
      split
      · next none =>
        have restNil := splitLines_eq_nil.1 none
        subst restNil
        exact .unended (by simp [Ne.symm notFeed]) (by simp)
      · next first others split =>
        rw [split] at ih
        exact ih.cons_of_ne notFeed

theorem hasLines_iff : HasLines text lines ↔ splitLines text = lines := by
  constructor
  · exact splitLines_of_hasLines
  · rintro rfl
    exact hasLines_splitLines text

end CopyrightHeader.Text

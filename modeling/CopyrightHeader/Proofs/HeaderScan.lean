import CopyrightHeader.Header
import CopyrightHeader.Proofs.Lines

/-! Reading a rendered header back.

The scan of a header works on physical lines. Put in front of a body, a rendered header is its own
lines followed by those of the body, so what the scan leaves is decided by the header alone: it is
recoverable, or it is cut short at one of its own lines, or it is not recognised at all.
-/

set_option autoImplicit false

namespace CopyrightHeader.Header

/-! ## The scan for the closing line -/

theorem afterClosing_append {closing : List Char} {front : List (List Char)}
    (other : ∀ line ∈ front, Text.lineText line ≠ closing) (rest : List (List Char)) :
    afterClosing closing (front ++ rest) = afterClosing closing rest := by
  induction front with
  | nil => rfl
  | cons line front ih =>
    rw [List.cons_append, afterClosing, if_neg (other line List.mem_cons_self)]
    exact ih fun line member => other line (List.mem_cons_of_mem _ member)

theorem afterClosing_cons {closing line : List Char} (ends : Text.lineText line = closing)
    (rest : List (List Char)) : afterClosing closing (line :: rest) = some (dropSeparator rest) := by
  rw [afterClosing, if_pos ends]

theorem exists_first_closing {closing : List Char} {lines : List (List Char)}
    (found : ∃ line ∈ lines, Text.lineText line = closing) :
    ∃ before line after, lines = before ++ line :: after ∧ Text.lineText line = closing ∧
      ∀ line ∈ before, Text.lineText line ≠ closing := by
  obtain ⟨line, member, ends⟩ := found
  obtain ⟨first, before, after, passed, closes, split, -⟩ :=
    List.exists_of_eraseP (p := fun line => Text.lineText line = closing) member (decide_eq_true ends)
  exact ⟨before, first, after, split, of_decide_eq_true closes, by simpa using passed⟩

theorem length_dropSeparator_le (lines : List (List Char)) :
    (dropSeparator lines).flatten.length ≤ lines.flatten.length := by
  cases lines with
  | nil => exact Nat.le_refl _
  | cons line rest =>
    rw [dropSeparator]
    split
    · simp
    · exact Nat.le_refl _

theorem length_afterClosing_lt {closing : List Char} {lines body : List (List Char)}
    (notEmpty : ∀ line ∈ lines, line ≠ []) (found : afterClosing closing lines = some body) :
    body.flatten.length < lines.flatten.length := by
  induction lines with
  | nil => simp [afterClosing] at found
  | cons line rest ih =>
    have positive : 0 < line.length := List.length_pos_iff.2 (notEmpty line List.mem_cons_self)
    rw [List.flatten_cons, List.length_append]
    rw [afterClosing] at found
    split at found
    · have := length_dropSeparator_le rest
      rw [← Option.some.inj found]
      omega
    · have := ih (fun line member => notEmpty line (List.mem_cons_of_mem _ member)) found
      omega

/-- Of two lines or more at most one is dropped as a separator. -/
theorem dropSeparator_append {lines : List (List Char)} (two : 2 ≤ lines.length)
    (notEmpty : ∀ line ∈ lines, line ≠ []) :
    ∃ kept, kept.flatten ≠ [] ∧ ∀ rest, dropSeparator (lines ++ rest) = kept ++ rest := by
  obtain ⟨first, second, others, rfl⟩ : ∃ first second others, lines = first :: second :: others := by
    match lines, two with
    | first :: second :: others, _ => exact ⟨first, second, others, rfl⟩
  have secondNotEmpty : second ≠ [] := notEmpty second (by simp)
  -- The first line may be the separator; the second stays in any case.
  by_cases blank : Text.lineText first = []
  · exact ⟨second :: others, by simp [secondNotEmpty], fun rest => by simp [dropSeparator, blank]⟩
  · exact ⟨first :: second :: others, by simp [secondNotEmpty],
      fun rest => by simp [dropSeparator, blank]⟩

/-! ## The lines of a rendered header -/

/-- The physical lines between the opening and the closing line of a rendered header. -/
def noticeLines (style : CommentStyle) (notice : Notice) : List (List Char) :=
  notice.lines.flatMap fun line => Text.writtenLines (style.formatLine line).toList

theorem toList_render (style : CommentStyle) (notice : Notice) :
    (render style notice).toList =
      ((renderedLines style notice ++ [""]).map String.toList).flatMap fun line => line ++ ['\n'] := by
  simp [render, List.flatMap_map]

theorem render_ne_empty (style : CommentStyle) (notice : Notice) : render style notice ≠ "" := by
  intro empty
  have chars : (render style notice).toList = [] := by rw [empty]; rfl
  simp [toList_render, renderedLines] at chars

/-- A rendered header is split apart from the body behind it. -/
theorem splitLines_render_append (style : CommentStyle) (notice : Notice) (body : String) :
    Text.splitLines (render style notice ++ body).toList =
      Text.writtenLines style.opening.toList ++ (noticeLines style notice ++
        (Text.writtenLines style.closing.toList ++ ['\n'] :: Text.splitLines body.toList)) := by
  have separator : Text.writtenLines [] = [['\n']] := rfl
  rw [String.toList_append, toList_render, Text.splitLines_flatMap]
  simp [renderedLines, noticeLines, separator, List.flatMap_map, List.flatMap_append]

theorem ne_nil_of_mem_noticeLines {style : CommentStyle} {notice : Notice} {line : List Char}
    (member : line ∈ noticeLines style notice) : line ≠ [] := by
  obtain ⟨text, -, written⟩ := List.mem_flatMap.1 member
  exact Text.ne_nil_of_mem_splitLines written

end CopyrightHeader.Header

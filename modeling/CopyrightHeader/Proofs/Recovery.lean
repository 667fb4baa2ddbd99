import CopyrightHeader.Proofs.HeaderScan

/-! When a rendered header comes off again.

A header is recoverable if its markers are line-safe and none of the physical lines in between says
what the closing line says. Such a header comes off any body whole. Any other one never leaves the
body it was put in front of; with a line-safe opening and an early closing line it always leaves
the same rest of itself.
-/

set_option autoImplicit false

namespace CopyrightHeader.Header

/-- Reading the header back ends at its end. -/
def Recoverable (style : CommentStyle) (notice : Notice) : Prop :=
  Text.LineSafe style.opening.toList ∧ Text.LineSafe style.closing.toList ∧
    ∀ line ∈ noticeLines style notice, Text.lineText line ≠ style.closing.toList

instance (style : CommentStyle) (notice : Notice) : Decidable (Recoverable style notice) :=
  inferInstanceAs (Decidable (_ ∧ _ ∧ _))

/-- Where every formatted line is line-safe, the physical lines are the formatted ones. -/
theorem exists_noticeLine_iff {style : CommentStyle} {notice : Notice}
    (safe : ∀ line ∈ notice.lines, Text.LineSafe (style.formatLine line).toList) :
    (∃ line ∈ noticeLines style notice, Text.lineText line = style.closing.toList) ↔
      ∃ line ∈ notice.lines, style.formatLine line = style.closing := by
  constructor
  · rintro ⟨physical, member, reads⟩
    obtain ⟨line, inNotice, written⟩ := List.mem_flatMap.1 member
    refine ⟨line, inNotice, String.toList_injective ?_⟩
    rw [Text.writtenLines_of_lineSafe (safe line inNotice), List.mem_singleton] at written
    rw [← reads, written, Text.lineText_of_lineSafe (safe line inNotice)]
  · rintro ⟨line, inNotice, same⟩
    refine ⟨(style.formatLine line).toList ++ ['\n'], ?_, ?_⟩
    · apply List.mem_flatMap.2
      exact ⟨line, inNotice, by simp [Text.writtenLines_of_lineSafe (safe line inNotice)]⟩
    · rw [Text.lineText_of_lineSafe (safe line inNotice), same]

theorem recoverable_iff_of_lineSafe {style : CommentStyle} {notice : Notice}
    (openingSafe : Text.LineSafe style.opening.toList)
    (closingSafe : Text.LineSafe style.closing.toList)
    (safe : ∀ line ∈ notice.lines, Text.LineSafe (style.formatLine line).toList) :
    Recoverable style notice ↔ ∀ line ∈ notice.lines, style.formatLine line ≠ style.closing := by
  have early := not_congr (exists_noticeLine_iff safe)
  simp only [not_exists, not_and] at early
  simp only [Recoverable, openingSafe, closingSafe, true_and]
  exact early

theorem strip_eq_ok_of_bodyLines {style : CommentStyle} {content : String}
    {lines : List (List Char)}
    (left : bodyLines style.opening.toList style.closing.toList (Text.splitLines content.toList) =
      some lines) : strip style content = .ok (String.ofList lines.flatten) := by
  rw [strip, left]

theorem bodyLines_render_append {style : CommentStyle} (notice : Notice) (body : String)
    (safe : Text.LineSafe style.opening.toList) :
    bodyLines style.opening.toList style.closing.toList
        (Text.splitLines (render style notice ++ body).toList) =
      afterClosing style.closing.toList (noticeLines style notice ++
        (Text.writtenLines style.closing.toList ++ ['\n'] :: Text.splitLines body.toList)) := by
  rw [splitLines_render_append, Text.writtenLines_of_lineSafe safe, List.singleton_append,
    bodyLines, if_pos (Text.lineText_of_lineSafe safe)]

theorem strip_render_append_of_not_lineSafe {style : CommentStyle} (notice : Notice) (body : String)
    (unsafeOpening : ¬ Text.LineSafe style.opening.toList) :
    strip style (render style notice ++ body) = .ok (render style notice ++ body) := by
  have split := splitLines_render_append style notice body
  have joined := Text.flatten_splitLines (render style notice ++ body).toList
  obtain ⟨first, others, opening⟩ := Text.exists_writtenLines_eq_cons style.opening.toList
  have differs : Text.lineText first ≠ style.opening.toList := fun same =>
    unsafeOpening (Text.lineSafe_of_lineText_eq (opening ▸ List.mem_cons_self) same)
  rw [opening, List.cons_append] at split
  rw [split] at joined
  have left : bodyLines style.opening.toList style.closing.toList
      (Text.splitLines (render style notice ++ body).toList) = some (first :: (others ++
        (noticeLines style notice ++
          (Text.writtenLines style.closing.toList ++ ['\n'] :: Text.splitLines body.toList)))) := by
    rw [split, bodyLines, if_neg differs]
  rw [strip_eq_ok_of_bodyLines left, joined, String.ofList_toList]

theorem strip_render_append_of_recoverable {style : CommentStyle} {notice : Notice}
    (recoverable : Recoverable style notice) (body : String) :
    strip style (render style notice ++ body) = .ok body := by
  obtain ⟨openingSafe, closingSafe, none⟩ := recoverable
  have left : bodyLines style.opening.toList style.closing.toList
      (Text.splitLines (render style notice ++ body).toList) =
        some (Text.splitLines body.toList) := by
    rw [bodyLines_render_append notice body openingSafe, afterClosing_append none,
      Text.writtenLines_of_lineSafe closingSafe, List.singleton_append,
      afterClosing_cons (Text.lineText_of_lineSafe closingSafe)]
    rfl
  rw [strip_eq_ok_of_bodyLines left, Text.flatten_splitLines, String.ofList_toList]

/-- An early closing line leaves the same rest of the header in front of every body. -/
theorem strip_render_append_of_early {style : CommentStyle} {notice : Notice}
    (openingSafe : Text.LineSafe style.opening.toList)
    (early : ∃ line ∈ noticeLines style notice, Text.lineText line = style.closing.toList) :
    ∃ rest, rest ≠ "" ∧ ∀ body, strip style (render style notice ++ body) = .ok (rest ++ body) := by
  obtain ⟨before, line, after, lines, ends, none⟩ := exists_first_closing early
  have closingNotEmpty : ∀ line ∈ Text.writtenLines style.closing.toList, line ≠ [] :=
    fun line member => Text.ne_nil_of_mem_splitLines member
  -- What is left of the notice, the real closing line and the separator are two lines or more.
  have two : 2 ≤ (after ++ (Text.writtenLines style.closing.toList ++ [['\n']])).length := by
    obtain ⟨first, others, written⟩ := Text.exists_writtenLines_eq_cons style.closing.toList
    simp only [written, List.length_append, List.length_cons]
    omega
  have notEmpty : ∀ line ∈ after ++ (Text.writtenLines style.closing.toList ++ [['\n']]),
      line ≠ [] := by
    intro line member
    rcases List.mem_append.1 member with member | member
    · have inNotice : line ∈ noticeLines style notice := by simp [lines, member]
      exact ne_nil_of_mem_noticeLines inNotice
    · rcases List.mem_append.1 member with member | member
      · exact closingNotEmpty line member
      · simp [List.mem_singleton.1 member]
  obtain ⟨kept, keptNotEmpty, drops⟩ := dropSeparator_append two notEmpty
  refine ⟨String.ofList kept.flatten, fun empty => keptNotEmpty ?_, fun body => ?_⟩
  · rw [← String.toList_ofList (l := kept.flatten), empty]
    rfl
  · have left : bodyLines style.opening.toList style.closing.toList
        (Text.splitLines (render style notice ++ body).toList) =
          some (kept ++ Text.splitLines body.toList) := by
      rw [bodyLines_render_append notice body openingSafe, lines, List.append_assoc,
        afterClosing_append none, List.cons_append, afterClosing_cons ends, ← drops]
      simp
    rw [strip_eq_ok_of_bodyLines left, List.flatten_append, Text.flatten_splitLines,
      String.ofList_append, String.ofList_toList]

/-- If the closing line is not line-safe, no line of the header is one, and the scan goes on into
the body. -/
theorem strip_render_append_of_not_lineSafe_closing {style : CommentStyle} {notice : Notice}
    (openingSafe : Text.LineSafe style.opening.toList)
    (unsafeClosing : ¬ Text.LineSafe style.closing.toList)
    (none : ∀ line ∈ noticeLines style notice, Text.lineText line ≠ style.closing.toList)
    (body : String) : strip style (render style notice ++ body) ≠ .ok body := by
  have noneInClosing : ∀ line ∈ Text.writtenLines style.closing.toList,
      Text.lineText line ≠ style.closing.toList :=
    fun line member same => unsafeClosing (Text.lineSafe_of_lineText_eq member same)
  have notSeparator : Text.lineText ['\n'] ≠ style.closing.toList := by
    intro same
    exact unsafeClosing (same ▸ Text.lineSafe_nil)
  have left := bodyLines_render_append notice body openingSafe
  rw [afterClosing_append none, afterClosing_append noneInClosing, afterClosing,
    if_neg notSeparator] at left
  intro recovered
  rw [strip, left] at recovered
  cases found : afterClosing style.closing.toList (Text.splitLines body.toList) with
  | none => simp [found] at recovered
  | some lines =>
    have shorter := length_afterClosing_lt (fun line => Text.ne_nil_of_mem_splitLines) found
    simp only [found, Except.ok.injEq] at recovered
    have same := congrArg String.toList recovered
    rw [String.toList_ofList] at same
    rw [Text.flatten_splitLines, same] at shorter
    exact Nat.lt_irrefl _ shorter

theorem length_lt_append {rest : String} (notEmpty : rest ≠ "") (body : String) :
    body.length < (rest ++ body).length := by
  have : rest.toList ≠ [] := fun h => notEmpty (String.toList_injective h)
  have := List.length_pos_iff.2 this
  rw [← String.length_toList, ← String.length_toList, String.toList_append, List.length_append]
  omega

theorem append_ne_self_of_ne_empty {rest : String} (notEmpty : rest ≠ "") (body : String) :
    rest ++ body ≠ body := by
  intro same
  have longer := length_lt_append notEmpty body
  rw [same] at longer
  exact Nat.lt_irrefl _ longer

/-- A header comes off a body exactly if it is recoverable, whatever the body. -/
theorem strip_render_append_iff (style : CommentStyle) (notice : Notice) (body : String) :
    strip style (render style notice ++ body) = .ok body ↔ Recoverable style notice := by
  refine ⟨fun recovered => ?_, fun recoverable => strip_render_append_of_recoverable recoverable body⟩
  by_cases openingSafe : Text.LineSafe style.opening.toList
  · by_cases early : ∃ line ∈ noticeLines style notice, Text.lineText line = style.closing.toList
    · obtain ⟨rest, notEmpty, leaves⟩ := strip_render_append_of_early openingSafe early
      rw [leaves body, Except.ok.injEq] at recovered
      exact absurd recovered (append_ne_self_of_ne_empty notEmpty body)
    · simp only [not_exists, not_and] at early
      refine ⟨openingSafe, Decidable.byContradiction fun unsafeClosing => ?_, early⟩
      exact strip_render_append_of_not_lineSafe_closing openingSafe unsafeClosing early body recovered
  · rw [strip_render_append_of_not_lineSafe notice body openingSafe, Except.ok.injEq] at recovered
    exact absurd recovered (append_ne_self_of_ne_empty (render_ne_empty style notice) body)

end CopyrightHeader.Header

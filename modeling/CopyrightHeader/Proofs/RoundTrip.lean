import CopyrightHeader.Proofs.Convergence
import CopyrightHeader.Proofs.Recovery

/-! Writing a header and reading it back, once and again and again.

With line-safe markers and notice lines, a header comes off every body exactly if the style writes
no notice line as its closing line; otherwise each further update leaves part of the old header in
the body. Without line-safety the check of the notice lines as a whole says too little: an update
can be repeated exactly if the header is recoverable physical line by physical line.
-/

set_option autoImplicit false

namespace CopyrightHeader.Header

/-- What an update leaves can be updated again without change exactly if the new header is
recoverable. The old content does not matter. -/
theorem update_output_iff {style : CommentStyle} {notice : Notice} {content output : String}
    (updated : update style notice content = .ok output) :
    update style notice output = .ok output ↔ Recoverable style notice := by
  obtain ⟨body, -, same⟩ := update_eq_ok.1 updated
  subst same
  refine Iff.trans ?_ (strip_render_append_iff style notice body)
  constructor
  · intro again
    obtain ⟨recovered, stripped, same⟩ := update_eq_ok.1 again
    have bodies : body = recovered := (String.append_right_inj _).1 same
    rw [← bodies] at stripped
    exact stripped
  · intro stripped
    exact update_eq_ok.2 ⟨body, stripped, rfl⟩

/-- An update that leaves `rest` of its header in every body makes any further one grow. -/
theorem updates_grow {style : CommentStyle} {notice : Notice} {rest : String} (notEmpty : rest ≠ "")
    (leaves : ∀ body, strip style (render style notice ++ body) = .ok (rest ++ body))
    {content output : String} (updated : update style notice content = .ok output) :
    ∃ contents : Nat → String, contents 0 = output ∧
      ∀ n, update style notice (contents n) = .ok (contents (n + 1)) ∧
        (contents n).length < (contents (n + 1)).length := by
  obtain ⟨body, -, rfl⟩ := update_eq_ok.1 updated
  let bodies : Nat → String := Nat.rec body fun _ body => rest ++ body
  refine ⟨fun n => render style notice ++ bodies n, rfl, fun n => ⟨?_, ?_⟩⟩
  · exact update_eq_ok.2 ⟨rest ++ bodies n, leaves (bodies n), rfl⟩
  · have longer := length_lt_append notEmpty (bodies n)
    change (render style notice ++ bodies n).length < (render style notice ++ (rest ++ bodies n)).length
    simp only [String.length_append] at longer ⊢
    omega

/-- Where all that is written is line-safe, a header comes off every body exactly if no formatted
line is the closing line; if one is, no body is recovered and no later update comes to rest. -/
theorem roundTrip_iff {style : CommentStyle} {notice : Notice}
    (openingSafe : Text.LineSafe style.opening.toList)
    (closingSafe : Text.LineSafe style.closing.toList)
    (linesSafe : ∀ line ∈ notice.lines, Text.LineSafe (style.formatLine line).toList) :
    ((∀ body, strip style (render style notice ++ body) = .ok body) ↔
      ∀ line ∈ notice.lines, style.formatLine line ≠ style.closing) ∧
    ((∃ line ∈ notice.lines, style.formatLine line = style.closing) →
      (∀ body, ∃ longer, strip style (render style notice ++ body) = .ok longer ∧
        body.length < longer.length) ∧
      ∀ content output, update style notice content = .ok output →
        ∃ contents : Nat → String, contents 0 = output ∧
          ∀ n, update style notice (contents n) = .ok (contents (n + 1)) ∧
            (contents n).length < (contents (n + 1)).length) := by
  constructor
  · rw [← recoverable_iff_of_lineSafe openingSafe closingSafe linesSafe]
    constructor
    · exact fun recovers => (strip_render_append_iff style notice "").1 (recovers "")
    · exact fun recoverable body => (strip_render_append_iff style notice body).2 recoverable
  · intro ends
    have early := (exists_noticeLine_iff linesSafe).2 ends
    obtain ⟨rest, notEmpty, leaves⟩ := strip_render_append_of_early openingSafe early
    constructor
    · exact fun body => ⟨rest ++ body, leaves body, length_lt_append notEmpty body⟩
    · exact fun content output updated => updates_grow notEmpty leaves updated

/-- A style without a lead and without a closing text: a blank notice line is its closing line. -/
theorem roundTrip_blank_closing :
    Text.LineSafe "%".toList ∧ Text.LineSafe "".toList ∧
      (∀ line ∈ ["", "a"], Text.LineSafe ((CommentStyle.mk "bare" "%" "" "").formatLine line).toList) ∧
      ¬ (∀ body, strip ⟨"bare", "%", "", ""⟩ (render ⟨"bare", "%", "", ""⟩ ⟨["", "a"]⟩ ++ body) =
        .ok body) ∧
      ∀ body, ∃ longer, strip ⟨"bare", "%", "", ""⟩ (render ⟨"bare", "%", "", ""⟩ ⟨["", "a"]⟩ ++ body) =
        .ok longer ∧ body.length < longer.length := by
  have openingSafe : Text.LineSafe "%".toList := by decide
  have closingSafe : Text.LineSafe "".toList := by decide
  have linesSafe : ∀ line ∈ ["", "a"],
      Text.LineSafe ((CommentStyle.mk "bare" "%" "" "").formatLine line).toList := by decide
  have both := @roundTrip_iff ⟨"bare", "%", "", ""⟩ ⟨["", "a"]⟩ openingSafe closingSafe linesSafe
  refine ⟨openingSafe, closingSafe, linesSafe, fun recovers => ?_, (both.2 ⟨"", by decide⟩).1⟩
  exact both.1.1 recovers "" (by decide) (by decide)

/-- For a style that a name gets under an accepted notice, an update can be repeated without change
exactly if the header is recoverable; line-safe texts are enough. -/
theorem update_repeatable_iff {notice : Notice} {styles : StyleTable} {exclusions : Exclusions}
    {processor : Processor} {name : String} {style : CommentStyle} {content output : String}
    (accepted : Processor.make notice styles exclusions = .ok processor)
    (resolved : styles.resolve name = some style)
    (updated : update style notice content = .ok output) :
    (update style notice output = .ok output ↔
      Text.LineSafe style.opening.toList ∧ Text.LineSafe style.closing.toList ∧
        ∀ line ∈ notice.lines, ∀ physical ∈ Text.writtenLines (style.formatLine line).toList,
          Text.lineText physical ≠ style.closing.toList) ∧
    (Text.LineSafe style.opening.toList → Text.LineSafe style.closing.toList →
      (∀ line ∈ notice.lines, Text.LineSafe (style.formatLine line).toList) →
        update style notice output = .ok output) := by
  have exact := update_output_iff updated
  constructor
  · rw [exact, Recoverable, noticeLines]
    simp only [List.mem_flatMap, forall_exists_index, and_imp]
    constructor
    · rintro ⟨opening, closing, lines⟩
      exact ⟨opening, closing, fun line member physical => lines physical line member⟩
    · rintro ⟨opening, closing, lines⟩
      exact ⟨opening, closing, fun physical line member => lines line member physical⟩
  · intro openingSafe closingSafe linesSafe
    have checked := (Processor.make_eq_ok.1 accepted).1
    apply exact.2
    apply (recoverable_iff_of_lineSafe openingSafe closingSafe linesSafe).2
    exact StyleTable.formatLine_ne_closing checked resolved

/-- The default notice in a shell file, with the condition met line by line. -/
theorem update_repeatable_shell :
    Processor.make .default .builtin .default = .ok ⟨.default, .builtin, .default⟩ ∧
      StyleTable.builtin.resolve "a.py" = some .shell ∧
      update .shell .default "#-\n# old\n#\n\nx\n" =
        .ok "#-\n# Copyright (c) 2016-2017 Doug Rabson\n# All rights reserved.\n#\n\nx\n" ∧
      update .shell .default
          "#-\n# Copyright (c) 2016-2017 Doug Rabson\n# All rights reserved.\n#\n\nx\n" =
        .ok "#-\n# Copyright (c) 2016-2017 Doug Rabson\n# All rights reserved.\n#\n\nx\n" := by
  have accepted : Processor.make .default .builtin .default =
      .ok ⟨.default, .builtin, .default⟩ := by decide
  have resolved : StyleTable.builtin.resolve "a.py" = some .shell := by decide
  have updated : update .shell .default "#-\n# old\n#\n\nx\n" =
      .ok "#-\n# Copyright (c) 2016-2017 Doug Rabson\n# All rights reserved.\n#\n\nx\n" := by
    decide
  refine ⟨accepted, resolved, updated, ?_⟩
  exact (update_repeatable_iff accepted resolved updated).1.2 (by decide)

/-- A notice line with a line break passes the check, and what stands behind the break closes the
header. -/
theorem accepted_update_not_repeatable :
    Processor.make ⟨["a\n#"]⟩ .builtin .default = .ok ⟨⟨["a\n#"]⟩, .builtin, .default⟩ ∧
      StyleTable.builtin.resolve "a.py" = some .shell ∧
      update .shell ⟨["a\n#"]⟩ "x\n" = .ok "#-\n# a\n#\n#\n\nx\n" ∧
      update .shell ⟨["a\n#"]⟩ "#-\n# a\n#\n#\n\nx\n" ≠ .ok "#-\n# a\n#\n#\n\nx\n" := by
  decide

end CopyrightHeader.Header

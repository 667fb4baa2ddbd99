import CopyrightHeader.Processor.Basic
import CopyrightHeader.Proofs.Pruning

/-! What the check of a notice against a table finds.

A passed check means that no style a name can get writes a notice line as its closing line. In a
table without patterns a failed check also means that some name gets such a style, and the conflict
reported is the first one.
-/

set_option autoImplicit false

namespace CopyrightHeader

namespace StyleTable

theorem conflictOf_eq_none {notice : Notice} {style : CommentStyle} :
    conflictOf notice style = none ↔
      ∀ line ∈ notice.lines, style.formatLine line ≠ style.closing := by
  simp [conflictOf]

theorem conflictOf_eq_some {notice : Notice} {style : CommentStyle} {conflict : Conflict}
    (found : conflictOf notice style = some conflict) :
    conflict.style = style.name ∧ style.formatLine conflict.line = style.closing ∧
      ∃ before after, notice.lines = before ++ conflict.line :: after ∧
        ∀ line ∈ before, style.formatLine line ≠ style.closing := by
  unfold conflictOf at found
  obtain ⟨line, first, rfl⟩ := Option.map_eq_some_iff.1 found
  obtain ⟨ends, before, after, lines, passed⟩ := List.find?_eq_some_iff_append.1 first
  exact ⟨rfl, of_decide_eq_true ends, before, after, lines, by simpa using passed⟩

/-- No style that a name can get ends its header early if the table has no conflict. -/
theorem formatLine_ne_closing {table : StyleTable} {notice : Notice}
    (accepted : table.conflict? notice = none) {name : String} {style : CommentStyle}
    (resolved : table.resolve name = some style) :
    ∀ line ∈ notice.lines, style.formatLine line ≠ style.closing := by
  obtain ⟨rule, member, rfl⟩ := exists_unshadowed_of_resolve resolved
  apply conflictOf_eq_none.1
  exact List.findSome?_eq_none_iff.1 accepted rule member

theorem length_before_lt_numCodePoints {table : StyleTable} {before after : List StyleRule}
    {rule : StyleRule} (rules : table.rules = before ++ rule :: after)
    (few : table.rules.length ≤ 1000000) : before.length < Char.numCodePoints := by
  have bound : 1000000 < Char.numCodePoints := by decide
  rw [rules, List.length_append, List.length_cons] at few
  omega

/-- A conflict belongs to the first rule, of those that no earlier one shadows, that has one. -/
theorem first_of_conflict? {table : StyleTable} {notice : Notice} {conflict : Conflict}
    (found : table.conflict? notice = some conflict) :
    ∃ before rule after, table.rules = before ++ rule :: after ∧ Unshadowed before rule ∧
      conflictOf notice rule.style = some conflict ∧
      ∀ front other back, before = front ++ other :: back → Unshadowed front other →
        ∀ line ∈ notice.lines, other.style.formatLine line ≠ other.style.closing := by
  obtain ⟨before, rule, after, rules, reachable, asked, passed⟩ := findSome?_unshadowed found
  refine ⟨before, rule, after, rules, reachable, asked, ?_⟩
  rintro front other back rfl shown
  apply conflictOf_eq_none.1
  exact passed other (mem_unshadowed shown)

end StyleTable

namespace Processor

theorem make_eq_ok {notice : Notice} {styles : StyleTable} {exclusions : Exclusions}
    {processor : Processor} : make notice styles exclusions = .ok processor ↔
      styles.conflict? notice = none ∧ processor = ⟨notice, styles, exclusions⟩ := by
  unfold make
  cases styles.conflict? notice with
  | none => simp [eq_comm]
  | some conflict => simp

theorem ofConfig_some_eq_ok {year : String} {config : Config} {processor : Processor} :
    ofConfig year (some config) = .ok processor ↔
      ∃ styles, config.styles = .ok styles ∧
        make (config.notice.render year) styles config.exclusions = .ok processor := by
  cases made : config.styles with
  | error error => simp [ofConfig, made]
  | ok styles => simp [ofConfig, made]

theorem conflict?_of_ofConfig {year : String} {config : Option Config} {processor : Processor}
    (built : ofConfig year config = .ok processor) :
    processor.styles.conflict? processor.notice = none := by
  unfold ofConfig at built
  split at built
  · obtain ⟨accepted, rfl⟩ := make_eq_ok.1 built
    exact accepted
  · split at built
    · cases built
    · obtain ⟨accepted, rfl⟩ := make_eq_ok.1 built
      exact accepted

end Processor

namespace StyleTable

/-- A table is checked without gaps: what it lets pass never goes wrong, and in a table without
patterns what it reports goes wrong for some name and is the first that does. -/
theorem check_sound_and_exact :
    (∀ (table : StyleTable) (notice : Notice) (name : String) (style : CommentStyle),
      table.conflict? notice = none → table.resolve name = some style →
        ∀ line ∈ notice.lines, style.formatLine line ≠ style.closing) ∧
    (∀ (year : String) (config : Option Config) (processor : Processor) (name : String)
      (style : CommentStyle), Processor.ofConfig year config = .ok processor →
        processor.styles.resolve name = some style →
          ∀ line ∈ processor.notice.lines, style.formatLine line ≠ style.closing) ∧
    ∀ (table : StyleTable) (notice : Notice),
      (∀ rule ∈ table.rules, rule.matcher.isGlob = false) → table.rules.length ≤ 1000000 →
        ((∃ conflict, table.conflict? notice = some conflict) ↔
          ∃ name style, table.resolve name = some style ∧
            ∃ line ∈ notice.lines, style.formatLine line = style.closing) ∧
        ∀ conflict, table.conflict? notice = some conflict →
          ∃ before rule after, table.rules = before ++ rule :: after ∧ Unshadowed before rule ∧
            (∀ front other back, before = front ++ other :: back → Unshadowed front other →
              ∀ line ∈ notice.lines, other.style.formatLine line ≠ other.style.closing) ∧
            conflict.style = rule.style.name ∧
            rule.style.formatLine conflict.line = rule.style.closing ∧
            (∃ earlier later, notice.lines = earlier ++ conflict.line :: later ∧
              ∀ line ∈ earlier, rule.style.formatLine line ≠ rule.style.closing) ∧
            ∃ name, table.resolve name = some rule.style := by
  refine ⟨fun table notice name style accepted resolved => formatLine_ne_closing accepted resolved,
    fun year config processor name style built resolved =>
      formatLine_ne_closing (Processor.conflict?_of_ofConfig built) resolved,
    fun table notice plain few => ⟨⟨?_, ?_⟩, ?_⟩⟩
  · rintro ⟨conflict, found⟩
    obtain ⟨before, rule, after, rules, reachable, asked, -⟩ := first_of_conflict? found
    obtain ⟨-, ends, earlier, later, lines, -⟩ := conflictOf_eq_some asked
    -- The reported rule is unshadowed, so some name gets its style.
    have short := length_before_lt_numCodePoints rules few
    obtain ⟨name, resolved⟩ := exists_resolve_of_unshadowed rules plain short reachable
    exact ⟨name, rule.style, resolved, conflict.line, by simp [lines], ends⟩
  · rintro ⟨name, style, resolved, line, member, ends⟩
    apply Option.ne_none_iff_exists'.1
    intro accepted
    exact formatLine_ne_closing accepted resolved line member ends
  · intro conflict found
    obtain ⟨before, rule, after, rules, reachable, asked, passed⟩ := first_of_conflict? found
    obtain ⟨sameName, ends, firstLine⟩ := conflictOf_eq_some asked
    have short := length_before_lt_numCodePoints rules few
    have resolved := exists_resolve_of_unshadowed rules plain short reachable
    exact ⟨before, rule, after, rules, reachable, passed, sameName, ends, firstLine, resolved⟩

/-- A blank line in the notice ends the header of a shell file early; the default notice passes,
and so does a configured one once its year is filled in. -/
theorem check_sound_and_exact_builtin :
    (builtin.conflict? .default = none ∧ builtin.resolve "a.py" = some .shell ∧
      ∀ line ∈ Notice.default.lines, CommentStyle.shell.formatLine line ≠ "#") ∧
    (∃ processor, Processor.ofConfig "2026" (some ⟨some ["\x7b\x7byear\x7d\x7d"], none, .empty, .empty⟩) =
        .ok processor ∧
      processor.styles.resolve "BUILD" = some .shell ∧
      ∀ line ∈ processor.notice.lines, CommentStyle.shell.formatLine line ≠ "#") ∧
    builtin.conflict? ⟨["Copyright", "", "Terms"]⟩ = some ⟨"Shell-style", ""⟩ ∧
      ∃ name style, builtin.resolve name = some style ∧
        ∃ line ∈ ["Copyright", "", "Terms"], style.formatLine line = style.closing := by
  have passes : builtin.conflict? .default = none := by decide
  have python : builtin.resolve "a.py" = some .shell := by decide
  have found : builtin.conflict? ⟨["Copyright", "", "Terms"]⟩ = some ⟨"Shell-style", ""⟩ := by
    decide
  refine ⟨⟨passes, python, check_sound_and_exact.1 _ _ _ _ passes python⟩, ?_, found, ?_⟩
  · refine ⟨⟨⟨["2026"]⟩, builtin, .default⟩, by decide, by decide, ?_⟩
    exact check_sound_and_exact.2.1 "2026" (some ⟨some ["\x7b\x7byear\x7d\x7d"], none, .empty, .empty⟩)
      _ "BUILD" .shell (by decide) (by decide)
  · exact ((check_sound_and_exact.2.2 builtin ⟨["Copyright", "", "Terms"]⟩ (by decide)
      (by decide)).1).1 ⟨_, found⟩

end StyleTable

end CopyrightHeader

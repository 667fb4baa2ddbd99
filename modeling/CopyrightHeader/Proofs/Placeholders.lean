import CopyrightHeader.Proofs.Convergence
import Mathlib.Data.List.Infix
import Mathlib.Data.List.Forall2

/-! What filling in the year makes of a line.

Two occurrences of the placeholder never overlap, so a line is cut at all of them in just one way.
Filling in puts the year between the pieces. No character of a year in digits occurs in the
placeholder, so nothing that looks like one can come up where a piece meets the year.
-/

set_option autoImplicit false

namespace CopyrightHeader.Notice

variable {pattern replacement : List Char}

/-! ## Patterns that do not overlap themselves -/

/-- Nothing but the pattern itself is both a start and an end of it. -/
def Unbordered (pattern : List Char) : Prop :=
  ∀ border, border <+: pattern → border <:+ pattern → border = [] ∨ border = pattern

theorem unbordered_placeholder : Unbordered placeholder := by
  have lengths : ∀ length ≤ placeholder.length, placeholder.take length <:+ placeholder →
      placeholder.take length = [] ∨ placeholder.take length = placeholder := by decide
  intro border starts ends
  have taken := List.prefix_iff_eq_take.1 starts
  rw [taken] at ends ⊢
  exact lengths _ starts.length_le ends

/-- In front of an occurrence, none begins in a piece that holds none itself. -/
theorem Unbordered.not_prefix_append (unbordered : Unbordered pattern) {piece back : List Char}
    (clear : ¬ pattern <:+: piece) (ends : back <:+ piece) (notNil : back ≠ []) (rest : List Char) :
    ¬ pattern <+: back ++ (pattern ++ rest) := by
  intro begins
  rcases List.prefix_or_prefix_of_prefix begins (List.prefix_append back _) with
    inside | ⟨border, split⟩
  · exact clear (inside.isInfix.trans ends.isInfix)
  · -- What is left of the occurrence behind the piece is a start of the one behind it.
    have shorter : border.length ≤ pattern.length := by
      rw [← split, List.length_append]
      exact Nat.le_add_left _ _
    have overlaps : border <+: pattern ++ rest := by
      rw [← split, List.append_assoc, List.prefix_append_right_inj, ← List.append_assoc,
        split] at begins
      exact begins
    have starts := List.prefix_of_prefix_length_le overlaps (List.prefix_append pattern rest) shorter
    rcases unbordered border starts ⟨back, split⟩ with none | whole
    · rw [none, List.append_nil] at split
      exact clear (split ▸ ends.isInfix)
    · rw [whole] at split
      exact notNil (List.append_left_eq_self.1 split)

/-! ## Cutting a text -/

/-- Pieces that hold no occurrence of the pattern, and make up the text with one between each two. -/
structure CutInto (pattern text : List Char) (pieces : List (List Char)) : Prop where
  notNil : pieces ≠ []
  clear : ∀ piece ∈ pieces, ¬ pattern <:+: piece
  joined : pattern.intercalate pieces = text

theorem cutInto_self {text : List Char} (clear : ¬ pattern <:+: text) :
    CutInto pattern text [text] where
  notNil := List.cons_ne_nil _ _
  clear := List.forall_mem_singleton.2 clear
  joined := List.intercalate_singleton

theorem CutInto.cons {text piece : List Char} {pieces : List (List Char)}
    (cut : CutInto pattern text pieces) (clear : ¬ pattern <:+: piece) :
    CutInto pattern (piece ++ (pattern ++ text)) (piece :: pieces) where
  notNil := List.cons_ne_nil _ _
  clear := List.forall_mem_cons.2 ⟨clear, cut.clear⟩
  joined := by
    obtain ⟨next, others, rfl⟩ := List.exists_cons_of_ne_nil cut.notNil
    rw [List.intercalate_cons_cons, cut.joined, List.append_assoc]

/-- A text is one piece, or a piece with an occurrence behind it and a rest that is cut. -/
theorem CutInto.cases {text : List Char} {pieces : List (List Char)}
    (cut : CutInto pattern text pieces) :
    (pieces = [text] ∧ ¬ pattern <:+: text) ∨
      ∃ piece rest others, pieces = piece :: others ∧ text = piece ++ (pattern ++ rest) ∧
        ¬ pattern <:+: piece ∧ CutInto pattern rest others := by
  obtain ⟨notNil, clear, joined⟩ := cut
  obtain ⟨piece, others, rfl⟩ := List.exists_cons_of_ne_nil notNil
  obtain ⟨first, clear⟩ := List.forall_mem_cons.1 clear
  cases others with
  | nil =>
    rw [List.intercalate_singleton] at joined
    exact .inl ⟨by rw [joined], joined ▸ first⟩
  | cons next others =>
    rw [List.intercalate_cons_cons, List.append_assoc] at joined
    exact .inr ⟨piece, _, next :: others, rfl, joined.symm, first, List.cons_ne_nil _ _, clear, rfl⟩

theorem exists_cutInto (notNil : pattern ≠ []) (text : List Char) :
    ∃ pieces, CutInto pattern text pieces := by
  induction length : text.length using Nat.strong_induction_on generalizing text with
  | _ length ih =>
    subst length
    cases text with
    | nil => exact ⟨[[]], cutInto_self (mt List.infix_nil.1 notNil)⟩
    | cons c rest =>
      by_cases begins : pattern <+: c :: rest
      · obtain ⟨behind, split⟩ := begins
        have shorter : behind.length < (c :: rest).length := by
          rw [← split, List.length_append]
          exact Nat.lt_add_of_pos_left (List.length_pos_of_ne_nil notNil)
        obtain ⟨pieces, cut⟩ := ih _ shorter behind rfl
        rw [← split]
        exact ⟨[] :: pieces, cut.cons (mt List.infix_nil.1 notNil)⟩
      · obtain ⟨pieces, cut⟩ := ih _ (Nat.lt_succ_self _) rest rfl
        -- The first character goes to the first piece: no occurrence begins with it.
        have clear {piece : List Char} (starts : c :: piece <+: c :: rest)
            (clear : ¬ pattern <:+: piece) : ¬ pattern <:+: c :: piece := by
          rw [List.infix_cons_iff]
          rintro (inFront | behind)
          · exact begins (inFront.trans starts)
          · exact clear behind
        rcases cut.cases with ⟨-, whole⟩ | ⟨piece, behind, others, -, rfl, first, cut⟩
        · exact ⟨_, cutInto_self (clear (List.prefix_refl _) whole)⟩
        · exact ⟨_, cut.cons (clear (List.prefix_append (c :: piece) _) first)⟩

/-- The first piece ends where the first occurrence begins. -/
theorem Unbordered.append_inj (unbordered : Unbordered pattern) {piece other rest rest' : List Char}
    (clear : ¬ pattern <:+: piece) (clear' : ¬ pattern <:+: other)
    (same : piece ++ (pattern ++ rest) = other ++ (pattern ++ rest')) :
    piece = other ∧ rest = rest' := by
  have noMore {front more behind behind' : List Char} (clear : ¬ pattern <:+: front ++ more)
      (same : pattern ++ behind = more ++ (pattern ++ behind')) : more = [] := by
    by_contra notNil
    refine unbordered.not_prefix_append clear (List.suffix_append front more) notNil behind' ?_
    exact ⟨behind, same⟩
  have pieces : piece = other := by
    rcases List.append_eq_append_iff.1 same with ⟨more, rfl, split⟩ | ⟨more, rfl, split⟩
    · rw [noMore clear' split, List.append_nil]
    · rw [noMore clear split, List.append_nil]
  rw [pieces, List.append_cancel_left_eq, List.append_cancel_left_eq] at same
  exact ⟨pieces, same⟩

theorem CutInto.unique (unbordered : Unbordered pattern) {text : List Char}
    {pieces others : List (List Char)} (cut : CutInto pattern text pieces)
    (cut' : CutInto pattern text others) : pieces = others := by
  induction pieces generalizing text others with
  | nil => exact absurd rfl cut.notNil
  | cons piece pieces ih =>
    have holds (piece rest : List Char) : pattern <:+: piece ++ (pattern ++ rest) :=
      ⟨piece, rest, List.append_assoc ..⟩
    rcases cut.cases with ⟨whole, clear⟩ | ⟨_, rest, _, same, rfl, clear, cut⟩
    · rcases cut'.cases with ⟨whole', -⟩ | ⟨_, _, _, -, rfl, -⟩
      · rw [whole, whole']
      · exact absurd (holds _ _) clear
    · cases same
      rcases cut'.cases with ⟨-, clear'⟩ | ⟨other, rest', others, rfl, split, clear', cut'⟩
      · exact absurd (holds _ _) clear'
      · obtain ⟨rfl, rfl⟩ := unbordered.append_inj clear clear' split
        rw [ih cut cut']

/-! ## Replacing -/

theorem replaceFrom_append_of_length (passed rest : List Char) :
    replaceFrom pattern replacement passed.length (passed ++ rest) =
      replaceFrom pattern replacement 0 rest := by
  induction passed with
  | nil => rfl
  | cons c passed ih => exact ih

theorem replaceFrom_cons_of_absent {c : Char} {rest : List Char}
    (passes : ¬ pattern <+: c :: rest) :
    replaceFrom pattern replacement 0 (c :: rest) = c :: replaceFrom pattern replacement 0 rest := by
  rw [replaceFrom, if_neg (mt List.isPrefixOf_iff_prefix.1 passes)]

theorem replaceFrom_pattern_append (notNil : pattern ≠ []) (rest : List Char) :
    replaceFrom pattern replacement 0 (pattern ++ rest) =
      replacement ++ replaceFrom pattern replacement 0 rest := by
  obtain ⟨c, others, rfl⟩ := List.exists_cons_of_ne_nil notNil
  have begins : (c :: others).isPrefixOf (c :: (others ++ rest)) = true :=
    List.isPrefixOf_iff_prefix.2 (List.prefix_append (c :: others) rest)
  rw [List.cons_append, replaceFrom, if_pos begins, List.length_cons, Nat.add_sub_cancel,
    replaceFrom_append_of_length]

theorem replaceFrom_of_clear {text : List Char} (clear : ¬ pattern <:+: text) :
    replaceFrom pattern replacement 0 text = text := by
  induction text with
  | nil => rfl
  | cons c rest ih =>
    rw [List.infix_cons_iff, not_or] at clear
    rw [replaceFrom_cons_of_absent clear.1, ih clear.2]

theorem replaceFrom_piece_append (unbordered : Unbordered pattern) {piece : List Char}
    (clear : ¬ pattern <:+: piece) (back : List Char) (ends : back <:+ piece) (rest : List Char) :
    replaceFrom pattern replacement 0 (back ++ (pattern ++ rest)) =
      back ++ replaceFrom pattern replacement 0 (pattern ++ rest) := by
  induction back with
  | nil => rfl
  | cons c back ih =>
    have passes := unbordered.not_prefix_append clear ends (List.cons_ne_nil c back) rest
    have next := ih ((List.suffix_cons c back).trans ends)
    rw [List.cons_append] at passes ⊢
    rw [replaceFrom_cons_of_absent passes, next, List.cons_append]

/-- Replacing puts the replacement between the pieces. -/
theorem CutInto.replaceFrom_eq (unbordered : Unbordered pattern) (notNil : pattern ≠ [])
    {text : List Char} {pieces : List (List Char)} (cut : CutInto pattern text pieces) :
    replaceFrom pattern replacement 0 text = replacement.intercalate pieces := by
  induction pieces generalizing text with
  | nil => exact absurd rfl cut.notNil
  | cons piece pieces ih =>
    rcases cut.cases with ⟨whole, clear⟩ | ⟨_, rest, _, same, rfl, clear, cut⟩
    · cases whole
      rw [replaceFrom_of_clear clear, List.intercalate_singleton]
    · cases same
      obtain ⟨next, others, rfl⟩ := List.exists_cons_of_ne_nil cut.notNil
      rw [replaceFrom_piece_append unbordered clear piece (List.suffix_refl piece),
        replaceFrom_pattern_append notNil, ih cut, List.intercalate_cons_cons, List.append_assoc]

/-- No occurrence reaches over characters that the pattern has none of. -/
theorem infix_of_infix_append (notNil : pattern ≠ []) {front between back : List Char}
    (foreign : ∀ c ∈ between, c ∉ pattern) (some : between ≠ [])
    (holds : pattern <:+: front ++ (between ++ back)) : pattern <:+: front ∨ pattern <:+: back := by
  rcases List.infix_append_iff.1 holds with inFront | behind | ⟨left, right, split, ends, begins⟩
  · exact .inl inFront
  · rcases List.infix_append_iff.1 behind with inside | behind | ⟨left, right, split, ends, begins⟩
    · obtain ⟨c, others, same⟩ := List.exists_cons_of_ne_nil notNil
      have member : c ∈ pattern := same ▸ List.mem_cons_self
      exact absurd member (foreign c (inside.mem member))
    · exact .inr behind
    · cases left with
      | nil => exact .inr (split ▸ begins.isInfix)
      | cons c left =>
        exact absurd (split ▸ List.mem_cons_self) (foreign c (ends.isInfix.mem List.mem_cons_self))
  · cases right with
    | nil =>
      rw [List.append_nil] at split
      exact .inl (split ▸ ends.isInfix)
    | cons c right =>
      obtain ⟨first, others, rfl⟩ := List.exists_cons_of_ne_nil some
      obtain ⟨same, -⟩ := List.cons_prefix_cons.1 begins
      have member : c ∈ pattern := split ▸ List.mem_append_right left List.mem_cons_self
      exact absurd member (foreign c (same ▸ List.mem_cons_self))

theorem CutInto.not_infix_intercalate (notNil : pattern ≠ []) {text : List Char}
    {pieces : List (List Char)} (cut : CutInto pattern text pieces)
    (foreign : ∀ c ∈ replacement, c ∉ pattern) (some : replacement ≠ []) :
    ¬ pattern <:+: replacement.intercalate pieces := by
  induction pieces generalizing text with
  | nil => exact absurd rfl cut.notNil
  | cons piece pieces ih =>
    rcases cut.cases with ⟨whole, clear⟩ | ⟨_, rest, _, same, -, clear, cut⟩
    · cases whole
      rwa [List.intercalate_singleton]
    · cases same
      obtain ⟨next, others, rfl⟩ := List.exists_cons_of_ne_nil cut.notNil
      rw [List.intercalate_cons_cons, List.append_assoc]
      intro holds
      rcases infix_of_infix_append notNil foreign some holds with inFront | behind
      · exact clear inFront
      · exact ih cut behind

/-! ## Lines -/

def HasPlaceholder (line : String) : Prop := placeholder <:+: line.toList

instance (line : String) : Decidable (HasPlaceholder line) :=
  inferInstanceAs (Decidable (_ <:+: _))

/-- The pieces of a line between its placeholders. -/
structure IsCut (line : String) (pieces : List String) : Prop where
  notNil : pieces ≠ []
  clear : ∀ piece ∈ pieces, ¬ HasPlaceholder piece
  joined : (String.ofList placeholder).intercalate pieces = line

theorem isCut_iff {line : String} {pieces : List String} :
    IsCut line pieces ↔ CutInto placeholder line.toList (pieces.map String.toList) := by
  have joins : (String.ofList placeholder).intercalate pieces = line ↔
      placeholder.intercalate (pieces.map String.toList) = line.toList := by
    rw [← String.toList_inj, String.toList_intercalate, String.toList_ofList]
  constructor
  · intro cut
    exact ⟨by simpa using cut.notNil, List.forall_mem_map.2 cut.clear, joins.1 cut.joined⟩
  · intro cut
    exact ⟨by simpa using cut.notNil, fun piece member => cut.clear _ (List.mem_map_of_mem member),
      joins.2 cut.joined⟩

theorem placeholder_ne_nil : placeholder ≠ [] := by decide

theorem existsUnique_isCut (line : String) : ∃! pieces, IsCut line pieces := by
  obtain ⟨pieces, cut⟩ := exists_cutInto placeholder_ne_nil line.toList
  have texts : (pieces.map String.ofList).map String.toList = pieces := by simp
  rw [← texts] at cut
  refine ⟨pieces.map String.ofList, isCut_iff.2 cut, fun others cut' => ?_⟩
  have same := (isCut_iff.1 cut').unique unbordered_placeholder cut
  exact List.map_injective_iff.2 (fun _ _ => String.toList_injective) same

theorem renderLine_of_isCut {line : String} {pieces : List String} (cut : IsCut line pieces)
    (year : String) : renderLine year line = year.intercalate pieces := by
  rw [← String.toList_inj, renderLine, String.toList_ofList, String.toList_intercalate]
  exact (isCut_iff.1 cut).replaceFrom_eq unbordered_placeholder placeholder_ne_nil

theorem renderLine_of_clear {line : String} (clear : ¬ HasPlaceholder line) (year : String) :
    renderLine year line = line := by
  rw [renderLine, replaceFrom_of_clear clear, String.ofList_toList]

/-- A year as it is written: some decimal digits. -/
def IsYear (year : String) : Prop := year ≠ "" ∧ ∀ c ∈ year.toList, c.isDigit

instance (year : String) : Decidable (IsYear year) :=
  decidable_of_iff (year ≠ "" ∧ year.toList.all (·.isDigit)) (and_congr_right' List.all_eq_true)

theorem isDigit_not_mem_placeholder {c : Char} (digit : c.isDigit) : c ∉ placeholder := by
  have none : placeholder.all (!·.isDigit) := by decide
  intro member
  simpa [digit] using List.all_eq_true.1 none c member

theorem not_hasPlaceholder_renderLine {year : String} (digits : IsYear year) (line : String) :
    ¬ HasPlaceholder (renderLine year line) := by
  obtain ⟨pieces, cut, -⟩ := existsUnique_isCut line
  rw [renderLine_of_isCut cut, HasPlaceholder, String.toList_intercalate]
  refine (isCut_iff.1 cut).not_infix_intercalate placeholder_ne_nil
    (fun c member => isDigit_not_mem_placeholder (digits.2 c member)) ?_
  simpa using digits.1

/-- Filling in keeps the lines in their order and puts the year where a line is cut, and every line
is cut in one way only. With a year in digits no placeholder is left, however many braces stand
around those that were there: filling in once more changes nothing, and the notice of a processor
has none. -/
theorem render_fills_in_all_placeholders (notice : Notice) (year : String) :
    List.Forall₂ (fun line rendered => ∀ pieces, IsCut line pieces → rendered = year.intercalate pieces)
      notice.lines (notice.render year).lines ∧
    (∀ line, ∃! pieces, IsCut line pieces) ∧
    (∀ line, ¬ HasPlaceholder line → renderLine year line = line) ∧
    (IsYear year →
      (∀ line ∈ (notice.render year).lines, ¬ HasPlaceholder line) ∧
      (∀ other, (notice.render year).render other = notice.render year) ∧
      ∀ config processor, Processor.ofConfig year (some config) = .ok processor →
        processor.notice = config.notice.render year ∧
          ∀ line ∈ processor.notice.lines, ¬ HasPlaceholder line) := by
  have filled (digits : IsYear year) (notice : Notice) :
      ∀ line ∈ (notice.render year).lines, ¬ HasPlaceholder line := by
    rw [render, List.forall_mem_map]
    exact fun line _ => not_hasPlaceholder_renderLine digits line
  refine ⟨?_, existsUnique_isCut, fun line clear => renderLine_of_clear clear year, fun digits => ?_⟩
  · rw [render, List.forall₂_map_right_iff, List.forall₂_same]
    exact fun line _ pieces cut => renderLine_of_isCut cut year
  · refine ⟨filled digits notice, fun other => ?_, fun config processor built => ?_⟩
    · have kept := List.map_congr_left fun line member =>
        renderLine_of_clear (filled digits notice line member) other
      rw [List.map_id'] at kept
      exact congrArg Notice.mk kept
    · obtain ⟨styles, -, made⟩ := Processor.ofConfig_some_eq_ok.1 built
      obtain ⟨-, rfl⟩ := Processor.make_eq_ok.1 made
      exact ⟨rfl, filled digits _⟩

def nested : String :=
  "(c) \x7b\x7b\x7b\x7byear\x7d\x7dyear\x7d\x7d Example, \x7b\x7byear\x7d\x7d"

def nestedConfig : Config := { Config.empty with noticeLines := some [nested, "Some rights."] }

/-- A placeholder with another one around it, as it seems, and one at the end of a line. -/
theorem render_fills_in_nested_placeholder :
    let filled := (Notice.mk [nested, "Some rights."]).render "2026"
    IsYear "2026" ∧ IsCut nested ["(c) \x7b\x7b", "year\x7d\x7d Example, ", ""] ∧
      filled.lines = ["(c) \x7b\x7b2026year\x7d\x7d Example, 2026", "Some rights."] ∧
      (∀ line ∈ filled.lines, ¬ HasPlaceholder line) ∧ filled.render "1999" = filled ∧
      ∃ processor, Processor.ofConfig "2026" (some nestedConfig) = .ok processor ∧
        processor.notice = filled := by
  intro filled
  have digits : IsYear "2026" := by decide
  have cut : IsCut nested ["(c) \x7b\x7b", "year\x7d\x7d Example, ", ""] :=
    ⟨by decide, by decide, by decide⟩
  have clear : ¬ HasPlaceholder "Some rights." := by decide
  have built : Processor.ofConfig "2026" (some nestedConfig) =
      .ok ⟨filled, .builtin, .default⟩ := by decide +kernel
  obtain ⟨lines, -, keeps, settles⟩ :=
    render_fills_in_all_placeholders ⟨[nested, "Some rights."]⟩ "2026"
  obtain ⟨noneLeft, again, stored⟩ := settles digits
  have first : renderLine "2026" nested = "(c) \x7b\x7b2026year\x7d\x7d Example, 2026" :=
    ((List.forall₂_cons.1 lines).1 _ cut).trans (by decide)
  have rendered : filled.lines = ["(c) \x7b\x7b2026year\x7d\x7d Example, 2026", "Some rights."] :=
    congrArg₂ (fun line other => [line, other]) first (keeps _ clear)
  exact ⟨digits, cut, rendered, noneLeft, again "1999", _, built, (stored _ _ built).1⟩

end CopyrightHeader.Notice

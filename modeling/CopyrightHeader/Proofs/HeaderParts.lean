import CopyrightHeader.Proofs.HeaderScan
import CopyrightHeader.Proofs.PhysicalLines

/-! Where the header of a text ends.

The physical lines of every text fall apart into those of a header, which may be missing, and those
of the body, unless a header is opened and never closed. To strip a text is to keep the lines of
the body, as they stand.
-/

set_option autoImplicit false

namespace CopyrightHeader.Header

open Text (Says)

/-- The separator in front of a body: one line that says nothing, if there is one. -/
inductive Separates : (separator body : List (List Char)) → Prop where
  | blank {line : List Char} {body : List (List Char)} (saysNothing : Says line []) :
      Separates [line] body
  | none {body : List (List Char)} (speaks : ∀ next ∈ body.head?, ¬ Says next []) :
      Separates [] body

/-- The lines of a header, its separator included, and those of the body behind it. -/
inductive Parts (opening closing : List Char) : (header body : List (List Char)) → Prop where
  | headerless {body : List (List Char)} (unopened : ∀ first ∈ body.head?, ¬ Says first opening) :
      Parts opening closing [] body
  | headed {first last : List Char} {between separator body : List (List Char)}
      (opens : Says first opening) (goesOn : ∀ line ∈ between, ¬ Says line closing)
      (closes : Says last closing) (separates : Separates separator body) :
      Parts opening closing (first :: between ++ last :: separator) body

/-- The lines open a header and never close it. -/
inductive Unclosed (opening closing : List Char) : (lines : List (List Char)) → Prop where
  | intro {first : List Char} {rest : List (List Char)} (opens : Says first opening)
      (goesOn : ∀ line ∈ rest, ¬ Says line closing) : Unclosed opening closing (first :: rest)

/-- Every line says just its text. -/
def Legible (lines : List (List Char)) : Prop :=
  ∀ line ∈ lines, ∀ said, Says line said ↔ Text.lineText line = said

theorem legible_splitLines (text : List Char) : Legible (Text.splitLines text) :=
  fun _ member _ => Text.says_iff member

section

variable {opening closing : List Char} {lines body : List (List Char)}

theorem Legible.tail {line : List Char} (legible : Legible (line :: lines)) : Legible lines :=
  fun other member => legible other (List.mem_cons_of_mem _ member)

theorem Legible.of_append {front back : List (List Char)} (legible : Legible (front ++ back)) :
    Legible front ∧ Legible back :=
  ⟨fun line member => legible line (List.mem_append_left _ member),
    fun line member => legible line (List.mem_append_right _ member)⟩

theorem dropSeparator_eq_iff (legible : Legible lines) :
    dropSeparator lines = body ↔ ∃ separator, lines = separator ++ body ∧ Separates separator body := by
  constructor
  · rintro rfl
    cases lines with
    | nil => exact ⟨[], rfl, .none (by simp [dropSeparator])⟩
    | cons line rest =>
      have spoken := legible line List.mem_cons_self []
      rw [dropSeparator]
      split
      · next blank => exact ⟨[line], rfl, .blank (spoken.2 blank)⟩
      · next speaks => exact ⟨[], rfl, .none (by simpa [spoken] using speaks)⟩
  · rintro ⟨separator, rfl, separates⟩
    cases separates with
    | @blank line _ saysNothing =>
      rw [List.singleton_append, dropSeparator, if_pos saysNothing.lineText_eq]
    | none speaks =>
      cases body with
      | nil => rfl
      | cons next rest =>
        have spoken := legible next List.mem_cons_self []
        rw [List.nil_append, dropSeparator, if_neg]
        exact fun blank => speaks next rfl (spoken.2 blank)

/-- The scan finds the first line that says the closing text, and drops the separator behind it. -/
theorem afterClosing_eq_some_iff (legible : Legible lines) :
    afterClosing closing lines = some body ↔
      ∃ between last separator, lines = between ++ last :: separator ++ body ∧
        (∀ line ∈ between, ¬ Says line closing) ∧ Says last closing ∧ Separates separator body := by
  constructor
  · intro found
    by_cases closed : ∃ line ∈ lines, Text.lineText line = closing
    · obtain ⟨between, last, rest, rfl, closes, goesOn⟩ := exists_first_closing closed
      rw [afterClosing_append goesOn, afterClosing_cons closes, Option.some.injEq] at found
      obtain ⟨early, late⟩ := legible.of_append
      obtain ⟨separator, rfl, separates⟩ := (dropSeparator_eq_iff late.tail).1 found
      refine ⟨between, last, separator, by simp, fun line member => ?_, ?_, separates⟩
      · rw [early line member]
        exact goesOn line member
      · exact (late last List.mem_cons_self closing).2 closes
    · have goesOn : ∀ line ∈ lines, Text.lineText line ≠ closing := by simpa using closed
      rw [← List.append_nil lines, afterClosing_append goesOn] at found
      cases found
  · rintro ⟨between, last, separator, rfl, goesOn, closes, separates⟩
    rw [List.append_assoc] at legible ⊢
    obtain ⟨early, late⟩ := legible.of_append
    have passed : ∀ line ∈ between, Text.lineText line ≠ closing := fun line member same =>
      goesOn line member ((early line member closing).2 same)
    have drops : dropSeparator (separator ++ body) = body :=
      (dropSeparator_eq_iff late.tail).2 ⟨separator, rfl, separates⟩
    rw [afterClosing_append passed, List.cons_append, afterClosing_cons closes.lineText_eq,
      drops]

theorem afterClosing_eq_none_iff (legible : Legible lines) :
    afterClosing closing lines = none ↔ ∀ line ∈ lines, ¬ Says line closing := by
  constructor
  · intro none line member closes
    obtain ⟨between, last, rest, rfl, closes, goesOn⟩ :=
      exists_first_closing ⟨line, member, closes.lineText_eq⟩
    rw [afterClosing_append goesOn, afterClosing_cons closes] at none
    cases none
  · intro goesOn
    have passed : ∀ line ∈ lines, Text.lineText line ≠ closing := fun line member same =>
      goesOn line member ((legible line member closing).2 same)
    rw [← List.append_nil lines, afterClosing_append passed]
    rfl

theorem bodyLines_eq_some_iff (legible : Legible lines) :
    bodyLines opening closing lines = some body ↔
      ∃ header, lines = header ++ body ∧ Parts opening closing header body := by
  constructor
  · intro found
    cases lines with
    | nil =>
      cases found
      exact ⟨[], rfl, .headerless (by simp)⟩
    | cons first rest =>
      have spoken := legible first List.mem_cons_self opening
      rw [bodyLines] at found
      split at found
      · next opens =>
        obtain ⟨between, last, separator, rfl, goesOn, closes, separates⟩ :=
          (afterClosing_eq_some_iff legible.tail).1 found
        exact ⟨first :: between ++ last :: separator, by simp,
          .headed (spoken.2 opens) goesOn closes separates⟩
      · next unopened =>
        cases found
        exact ⟨[], rfl, .headerless (by simpa [spoken] using unopened)⟩
  · rintro ⟨header, rfl, parts⟩
    cases parts with
    | headerless unopened =>
      cases body with
      | nil => rfl
      | cons first rest =>
        have spoken := legible first List.mem_cons_self opening
        rw [List.nil_append, bodyLines, if_neg]
        exact fun opens => unopened first rfl (spoken.2 opens)
    | @headed first last between separator _ opens goesOn closes separates =>
      rw [List.cons_append, List.cons_append] at legible ⊢
      rw [bodyLines, if_pos opens.lineText_eq]
      exact (afterClosing_eq_some_iff legible.tail).2
        ⟨between, last, separator, rfl, goesOn, closes, separates⟩

theorem bodyLines_eq_none_iff (legible : Legible lines) :
    bodyLines opening closing lines = none ↔ Unclosed opening closing lines := by
  constructor
  · intro none
    cases lines with
    | nil => cases none
    | cons first rest =>
      rw [bodyLines] at none
      split at none
      · next opens =>
        exact ⟨(legible first List.mem_cons_self opening).2 opens,
          (afterClosing_eq_none_iff legible.tail).1 none⟩
      · cases none
  · rintro ⟨opens, goesOn⟩
    rw [bodyLines, if_pos opens.lineText_eq]
    exact (afterClosing_eq_none_iff legible.tail).2 goesOn

end

/-- How many bytes lines take up. -/
def byteSize (lines : List (List Char)) : Nat :=
  lines.foldr (fun line total => (String.ofList line).utf8ByteSize + total) 0

theorem utf8ByteSize_ofList_flatten (lines : List (List Char)) :
    (String.ofList lines.flatten).utf8ByteSize = byteSize lines := by
  induction lines with
  | nil => rfl
  | cons line lines ih =>
    rw [List.flatten_cons, String.ofList_append, String.utf8ByteSize_append, ih]
    rfl

/-- A cut between lines is a cut of the text, and falls between characters. -/
theorem cut_between_lines {content : String} {front back : List (List Char)}
    (joined : content.toList = (front ++ back).flatten) :
    content = String.ofList front.flatten ++ String.ofList back.flatten ∧
      (String.Pos.Raw.mk (byteSize front)).IsValid content := by
  have same : content = String.ofList front.flatten ++ String.ofList back.flatten := by
    rw [← String.ofList_append, ← List.flatten_append, ← joined, String.ofList_toList]
  refine ⟨same, String.Pos.Raw.isValid_iff_exists_append.2 ⟨_, _, same, ?_⟩⟩
  rw [← utf8ByteSize_ofList_flatten]
  rfl

/-- A text has one list of physical lines. Either they open a header and never close it, and then
the text cannot be stripped, or they fall apart into header and body in just one way, at a place
between two lines, and the body is what is left of the text. -/
theorem strip_keeps_body (style : CommentStyle) (content : String) :
    ∃ lines, (∀ others, Text.HasLines content.toList others ↔ others = lines) ∧
      (∀ fault, strip style content = .error fault ↔
        fault = ⟨style.opening, style.closing⟩ ∧
          Unclosed style.opening.toList style.closing.toList lines) ∧
      (∀ left, strip style content = .ok left ↔
        ∃ header body, lines = header ++ body ∧
          Parts style.opening.toList style.closing.toList header body ∧
          left = String.ofList body.flatten) ∧
      ∀ header body, lines = header ++ body →
        content = String.ofList header.flatten ++ String.ofList body.flatten ∧
          (String.Pos.Raw.mk (byteSize header)).IsValid content := by
  have legible := legible_splitLines content.toList
  refine ⟨Text.splitLines content.toList, fun others => ?_, fun fault => ?_, fun left => ?_, ?_⟩
  · rw [Text.hasLines_iff, eq_comm]
  · rw [← bodyLines_eq_none_iff legible, strip]
    cases bodyLines style.opening.toList style.closing.toList (Text.splitLines content.toList) with
    | none => simp [eq_comm]
    | some body => simp
  · constructor
    · intro stripped
      unfold strip at stripped
      split at stripped
      · next body found =>
        obtain ⟨header, split, parts⟩ := (bodyLines_eq_some_iff legible).1 found
        exact ⟨header, body, split, parts, (Except.ok.inj stripped).symm⟩
      · cases stripped
    · rintro ⟨header, body, split, parts, rfl⟩
      rw [strip, (bodyLines_eq_some_iff legible).2 ⟨header, split, parts⟩]
  · intro header body split
    exact cut_between_lines (by rw [← split, Text.flatten_splitLines])

/-- A header in which some lines end in a carriage return and a line feed, and two empty lines
behind it. -/
theorem strip_keeps_second_empty_line :
    strip .c "/*-\r\n * old\n */\r\n\r\n\nint x;" = .ok "\nint x;" := by
  obtain ⟨lines, split, -, keeps, -⟩ :=
    strip_keeps_body .c "/*-\r\n * old\n */\r\n\r\n\nint x;"
  have parts : Parts "/*-".toList " */".toList
      ("/*-\r\n".toList :: [" * old\n".toList] ++ " */\r\n".toList :: ["\r\n".toList])
      ["\n".toList, "int x;".toList] := by
    have opens := @Says.returnLineFeed "/*-".toList (by decide)
    have closes := @Says.returnLineFeed " */".toList (by decide)
    have saysNothing := @Says.returnLineFeed [] (by decide)
    refine .headed opens (fun line member spoken => ?_) closes (.blank saysNothing)
    rw [List.mem_singleton.1 member] at spoken
    exact absurd spoken.lineText_eq (by decide)
  exact (keeps _).2 ⟨_, _, ((split _).1 (Text.hasLines_iff.2 rfl)).symm, parts, rfl⟩

end CopyrightHeader.Header

import CopyrightHeader.Proofs.HeaderScan
import CopyrightHeader.Proofs.PhysicalLines

/-! Headers and how lines end.

How many lines a header takes up follows from what the lines say. So a text is cut behind the same
line whichever of its lines end in a carriage return and a line feed, and every line that is left
keeps the end it had.
-/

set_option autoImplicit false

namespace CopyrightHeader

namespace Text

inductive LineEnding where
  | lineFeed
  | returnLineFeed
  deriving DecidableEq, Repr

def LineEnding.chars : LineEnding → List Char
  | .lineFeed => ['\n']
  | .returnLineFeed => ['\r', '\n']

/-- What a line says, and how it ends. -/
structure EndedLine where
  said : List Char
  ending : LineEnding
  deriving DecidableEq, Repr

def EndedLine.chars (line : EndedLine) : List Char := line.said ++ line.ending.chars

/-- A last piece that no line end follows; it is missing if it is empty. -/
def lastLine (piece : List Char) : List (List Char) := if piece = [] then [] else [piece]

/-- Lines one below the other, and a last piece behind them. -/
def assemble (lines : List EndedLine) (piece : List Char) : List (List Char) :=
  lines.map EndedLine.chars ++ lastLine piece

variable {lines : List EndedLine} {piece : List Char}

theorem hasLines_assemble (free : ∀ line ∈ lines, '\n' ∉ line.said) (pieceFree : '\n' ∉ piece) :
    HasLines (assemble lines piece).flatten (assemble lines piece) := by
  induction lines with
  | nil =>
    by_cases missing : piece = []
    · simpa [assemble, lastLine, missing] using HasLines.nil
    · simpa [assemble, lastLine, missing] using HasLines.unended pieceFree missing
  | cons line lines ih =>
    obtain ⟨lineFree, free⟩ := List.forall_mem_cons.1 free
    have below := ih free
    obtain ⟨said, ending⟩ := line
    cases ending with
    | lineFeed => simpa [assemble, EndedLine.chars, LineEnding.chars] using below.cons lineFree
    | returnLineFeed =>
      have returnFree : '\n' ∉ said ++ ['\r'] := by simpa using lineFree
      simpa [assemble, EndedLine.chars, LineEnding.chars] using below.cons returnFree

theorem splitLines_assemble (free : ∀ line ∈ lines, '\n' ∉ line.said) (pieceFree : '\n' ∉ piece) :
    splitLines (assemble lines piece).flatten = assemble lines piece :=
  hasLines_iff.1 (hasLines_assemble free pieceFree)

theorem lineText_chars {line : EndedLine} (safe : LineSafe line.said) :
    lineText line.chars = line.said := by
  obtain ⟨said, ending⟩ := line
  cases ending with
  | lineFeed => exact (Says.lineFeed safe.1 safe.2).lineText_eq
  | returnLineFeed => exact (Says.returnLineFeed safe.1).lineText_eq

/-- The ends of lines are no part of what is read. -/
theorem map_lineText_assemble (safe : ∀ line ∈ lines, LineSafe line.said)
    (pieceFree : '\n' ∉ piece) :
    (assemble lines piece).map lineText = lines.map EndedLine.said ++ lastLine piece := by
  have pieceRead : (lastLine piece).map lineText = lastLine piece := by
    unfold lastLine
    split
    · rfl
    · next present => simp [(Says.unended pieceFree present).lineText_eq]
  rw [assemble, List.map_append, pieceRead, List.map_map]
  congr 1
  exact List.map_congr_left fun line member => lineText_chars (safe line member)

/-! ## Carriage returns for a whole text -/

def withReturns (text : List Char) : List Char :=
  text.flatMap fun c => if c = '\n' then ['\r', '\n'] else [c]

theorem withReturns_append (front back : List Char) :
    withReturns (front ++ back) = withReturns front ++ withReturns back :=
  List.flatMap_append

theorem withReturns_flatten (lines : List (List Char)) :
    withReturns lines.flatten = (lines.map withReturns).flatten := by
  induction lines with
  | nil => rfl
  | cons line lines ih =>
    rw [List.flatten_cons, withReturns_append, ih, List.map_cons, List.flatten_cons]

theorem withReturns_of_newline_not_mem {text : List Char} (free : '\n' ∉ text) :
    withReturns text = text := by
  induction text with
  | nil => rfl
  | cons c text ih =>
    have notFeed : c ≠ '\n' := fun same => free (by simp [same])
    have onward := ih fun member => free (List.mem_cons_of_mem _ member)
    rw [withReturns] at onward ⊢
    rw [List.flatMap_cons, if_neg notFeed, onward]
    rfl

theorem hasLines_withReturns {text : List Char} {lines : List (List Char)}
    (has : HasLines text lines) : HasLines (withReturns text) (lines.map withReturns) := by
  induction has with
  | nil => exact .nil
  | unended free notEmpty =>
    simpa [withReturns_of_newline_not_mem free] using HasLines.unended free notEmpty
  | @cons line rest lines free more ih =>
    have returnFree : '\n' ∉ line ++ ['\r'] := by simpa using free
    have feed : withReturns ['\n'] = ['\r', '\n'] := rfl
    have whole : withReturns (line ++ '\n' :: rest) = (line ++ ['\r']) ++ '\n' :: withReturns rest := by
      have split : line ++ '\n' :: rest = line ++ (['\n'] ++ rest) := rfl
      rw [split, withReturns_append, withReturns_append, withReturns_of_newline_not_mem free, feed]
      simp
    have first : withReturns (line ++ ['\n']) = (line ++ ['\r']) ++ ['\n'] := by
      rw [withReturns_append, withReturns_of_newline_not_mem free, feed]
      simp
    rw [whole, List.map_cons, first]
    exact ih.cons returnFree

/-- A line without carriage returns says the same with one in its line end. -/
theorem lineText_withReturns {text line : List Char} (member : line ∈ splitLines text)
    (unreturned : '\r' ∉ line) : lineText (withReturns line) = lineText line := by
  obtain ⟨said, free, rfl | ⟨rfl, -⟩⟩ := shape_of_mem_splitLines member
  · have plain : said.getLast? ≠ some '\r' := fun final =>
      unreturned (List.mem_append_left _ (List.mem_of_getLast? final))
    have returned : withReturns (said ++ ['\n']) = said ++ ['\r', '\n'] := by
      rw [withReturns_append, withReturns_of_newline_not_mem free]
      rfl
    rw [returned, (Says.returnLineFeed free).lineText_eq, (Says.lineFeed free plain).lineText_eq]
  · rw [withReturns_of_newline_not_mem free]

end Text

namespace Header

/-! ## The length of a header -/

/-- How many lines a separator takes up, by what the lines say. -/
def separatorLength : List (List Char) → Nat
  | [] => 0
  | said :: _ => if said = [] then 1 else 0

/-- How many lines stand in front of a body, from behind the opening line. -/
def closedLength (closing : List Char) : List (List Char) → Option Nat
  | [] => none
  | said :: rest =>
    if said = closing then some (separatorLength rest + 1)
    else (closedLength closing rest).map (· + 1)

/-- How many lines stand in front of the body; `none` if a header is opened and never closed. -/
def headerLength (opening closing : List Char) : List (List Char) → Option Nat
  | [] => some 0
  | said :: rest =>
    if said = opening then (closedLength closing rest).map (· + 1) else some 0

theorem dropSeparator_eq_drop (lines : List (List Char)) :
    dropSeparator lines = lines.drop (separatorLength (lines.map Text.lineText)) := by
  cases lines with
  | nil => rfl
  | cons line rest =>
    rw [dropSeparator, List.map_cons, separatorLength]
    split <;> rfl

theorem afterClosing_eq_drop (closing : List Char) (lines : List (List Char)) :
    afterClosing closing lines =
      (closedLength closing (lines.map Text.lineText)).map fun length => lines.drop length := by
  induction lines with
  | nil => rfl
  | cons line rest ih =>
    rw [afterClosing, List.map_cons, closedLength]
    split
    · rw [dropSeparator_eq_drop]
      rfl
    · rw [ih, Option.map_map]
      rfl

/-- A header is as long as what the lines say makes it. -/
theorem bodyLines_eq_drop (opening closing : List Char) (lines : List (List Char)) :
    bodyLines opening closing lines =
      (headerLength opening closing (lines.map Text.lineText)).map fun length =>
        lines.drop length := by
  cases lines with
  | nil => rfl
  | cons line rest =>
    rw [bodyLines, List.map_cons, headerLength]
    split
    · rw [afterClosing_eq_drop, Option.map_map]
      rfl
    · rfl

theorem separatorLength_le (texts : List (List Char)) : separatorLength texts ≤ texts.length := by
  cases texts with
  | nil => exact Nat.le_refl 0
  | cons said rest =>
    rw [separatorLength, List.length_cons]
    split <;> omega

theorem closedLength_le {closing : List Char} {texts : List (List Char)} {length : Nat}
    (found : closedLength closing texts = some length) : length ≤ texts.length := by
  induction texts generalizing length with
  | nil => cases found
  | cons said rest ih =>
    rw [closedLength] at found
    split at found
    · have := separatorLength_le rest
      rw [← Option.some.inj found, List.length_cons]
      omega
    · obtain ⟨less, behind, rfl⟩ := Option.map_eq_some_iff.1 found
      exact Nat.succ_le_succ (ih behind)

theorem headerLength_le {opening closing : List Char} {texts : List (List Char)} {length : Nat}
    (found : headerLength opening closing texts = some length) : length ≤ texts.length := by
  cases texts with
  | nil => exact Nat.le_of_eq (Option.some.inj found).symm
  | cons said rest =>
    rw [headerLength] at found
    split at found
    · obtain ⟨less, behind, rfl⟩ := Option.map_eq_some_iff.1 found
      exact Nat.succ_le_succ (closedLength_le behind)
    · exact (Option.some.inj found) ▸ Nat.zero_le _

/-! ## Texts that say the same -/

variable {style : CommentStyle} {content : String}

/-- What the lines of a text say decides how many of them are stripped off. -/
theorem strip_eq_drop {lines texts : List (List Char)}
    (split : Text.splitLines content.toList = lines) (read : lines.map Text.lineText = texts) :
    strip style content =
      match headerLength style.opening.toList style.closing.toList texts with
      | some length => .ok (String.ofList (lines.drop length).flatten)
      | none => .error ⟨style.opening, style.closing⟩ := by
  rw [strip, split, bodyLines_eq_drop, read]
  cases headerLength style.opening.toList style.closing.toList texts <;> rfl

open Text (EndedLine LineSafe assemble lastLine withReturns)

theorem strip_assemble {lines : List EndedLine} {piece : List Char}
    (safe : ∀ line ∈ lines, LineSafe line.said) (pieceFree : '\n' ∉ piece) :
    strip style (String.ofList (assemble lines piece).flatten) =
      match headerLength style.opening.toList style.closing.toList
          (lines.map EndedLine.said ++ lastLine piece) with
      | some length => .ok (String.ofList ((assemble lines piece).drop length).flatten)
      | none => .error ⟨style.opening, style.closing⟩ := by
  refine strip_eq_drop ?_ (Text.map_lineText_assemble safe pieceFree)
  rw [String.toList_ofList]
  exact Text.splitLines_assemble (fun line member => (safe line member).1) pieceFree

/-- A whole text with carriage returns put in has the same body, with carriage returns put in. -/
theorem strip_withReturns (unreturned : '\r' ∉ content.toList) :
    strip style (String.ofList (withReturns content.toList)) =
      (strip style content).map fun body => String.ofList (withReturns body.toList) := by
  have split : Text.splitLines (String.ofList (withReturns content.toList)).toList =
      (Text.splitLines content.toList).map withReturns := by
    rw [String.toList_ofList]
    exact Text.hasLines_iff.1 (Text.hasLines_withReturns (Text.hasLines_splitLines _))
  have read : ((Text.splitLines content.toList).map withReturns).map Text.lineText =
      (Text.splitLines content.toList).map Text.lineText := by
    rw [List.map_map]
    refine List.map_congr_left fun line member => Text.lineText_withReturns member fun inside => ?_
    have joined := Text.flatten_splitLines content.toList
    exact unreturned (joined ▸ List.mem_flatten.2 ⟨line, member, inside⟩)
  rw [strip_eq_drop split read, strip_eq_drop rfl rfl]
  cases headerLength style.opening.toList style.closing.toList
      ((Text.splitLines content.toList).map Text.lineText) with
  | none => rfl
  | some length => simp [Except.map, Text.withReturns_flatten]

/-- Two texts whose lines say the same, each line ending in its own way: both open a header that
is never closed, or the same number of lines is stripped off both and the others stay as they are.
In particular the header of a whole text can be stripped before or after carriage returns are put
into it. -/
theorem strip_ignores_line_endings (style : CommentStyle) :
    (∀ (first second : List EndedLine) (piece : List Char),
      first.map EndedLine.said = second.map EndedLine.said →
      (∀ line ∈ first, LineSafe line.said) → '\n' ∉ piece →
        (∀ fault, strip style (String.ofList (assemble first piece).flatten) = .error fault ↔
          strip style (String.ofList (assemble second piece).flatten) = .error fault) ∧
        ∀ body, strip style (String.ofList (assemble first piece).flatten) = .ok body →
          ∃ removed ≤ (assemble first piece).length,
            body = String.ofList ((assemble first piece).drop removed).flatten ∧
            strip style (String.ofList (assemble second piece).flatten) =
              .ok (String.ofList ((assemble second piece).drop removed).flatten)) ∧
    ∀ content : String, '\r' ∉ content.toList →
      strip style (String.ofList (withReturns content.toList)) =
        (strip style content).map fun body => String.ofList (withReturns body.toList) := by
  refine ⟨fun first second piece same safe pieceFree => ?_, fun content => strip_withReturns⟩
  have safeToo : ∀ line ∈ second, LineSafe line.said := by
    intro line member
    obtain ⟨other, inside, said⟩ := List.mem_map.1 (same ▸ List.mem_map_of_mem member)
    exact said ▸ safe other inside
  rw [strip_assemble safe pieceFree, strip_assemble safeToo pieceFree, ← same]
  cases found : headerLength style.opening.toList style.closing.toList
      (first.map EndedLine.said ++ lastLine piece) with
  | none => exact ⟨fun fault => Iff.rfl, fun body stripped => nomatch stripped⟩
  | some length =>
    refine ⟨fun fault => ⟨nofun, nofun⟩, fun body stripped => ⟨length, ?_, ?_, rfl⟩⟩
    · simpa [assemble] using headerLength_le found
    · exact (Except.ok.inj stripped).symm

/-- Line feeds throughout, and the same lines with ends of both kinds. -/
theorem strip_ignores_mixed_line_endings :
    strip .c "/*-\n * old\n */\n\nint x;\nint y;" = .ok "int x;\nint y;" ∧
      strip .c "/*-\r\n * old\n */\n\r\nint x;\r\nint y;" = .ok "int x;\r\nint y;" ∧
      strip .c "/*-\r\n * old\r\n */\r\n\r\nint x;\r\nint y;" = .ok "int x;\r\nint y;" := by
  have stripped : strip .c "/*-\n * old\n */\n\nint x;\nint y;" = .ok "int x;\nint y;" := rfl
  refine ⟨stripped, ?_, ?_⟩
  · obtain ⟨removed, few, left, keeps⟩ := ((strip_ignores_line_endings .c).1
      [⟨"/*-".toList, .lineFeed⟩, ⟨" * old".toList, .lineFeed⟩, ⟨" */".toList, .lineFeed⟩,
        ⟨[], .lineFeed⟩, ⟨"int x;".toList, .lineFeed⟩]
      [⟨"/*-".toList, .returnLineFeed⟩, ⟨" * old".toList, .lineFeed⟩, ⟨" */".toList, .lineFeed⟩,
        ⟨[], .returnLineFeed⟩, ⟨"int x;".toList, .returnLineFeed⟩]
      "int y;".toList rfl (by decide) (by decide)).2 _ stripped
    -- The body tells how many lines are gone.
    have four : removed = 4 := by
      clear keeps
      revert removed
      decide
    rw [four] at keeps
    exact keeps
  · exact (strip_ignores_line_endings .c).2 "/*-\n * old\n */\n\nint x;\nint y;" (by decide)

end Header

end CopyrightHeader

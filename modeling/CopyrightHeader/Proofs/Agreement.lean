import CopyrightHeader.Proofs.Revision

/-! Trees that agree below the headers.

Of a file with a style an update keeps only what stands below the header. To a run, two trees with
the same entries whose files agree below their headers are the same: it fails on both alike or
succeeds on both alike, reports the same, and in the end leaves one and the same tree.
-/

set_option autoImplicit false

namespace CopyrightHeader

/-- Two texts with the same body below what the style finds as their headers. -/
def Header.SameBody (style : CommentStyle) (first second : ByteArray) : Prop :=
  ∃ text other body, String.fromUTF8? first = some text ∧ String.fromUTF8? second = some other ∧
    strip style text = .ok body ∧ strip style other = .ok body

/-- Two runs that report the same and have the same outcome, with the same tree if they succeed. -/
structure Run.Matches (first second : Run) : Prop where
  events : second.events = first.events
  outcome : second.outcome = first.outcome
  files : ∀ summary, first.outcome = .ok summary → second.files = first.files

theorem Run.Matches.of_error {first second : Run} {error : RunError}
    (events : second.events = first.events) (fails : first.outcome = .error error)
    (failsToo : second.outcome = .error error) : first.Matches second where
  events := events
  outcome := failsToo.trans fails.symm
  files := by
    intro summary succeeds
    rw [fails] at succeeds
    cases succeeds

namespace Processor

/-- The second tree is the first with other contents, and these differ only in the headers of the
sources that have a style. -/
def Agree (processor : Processor) (first second : FileSystem) (sources : List Source) : Prop :=
  ∃ change, second = first.mapFiles change ∧
    ∀ location content, first.top.nodeAt location = some (.leaf (.file content)) →
      change location content = content ∨
      ∃ source ∈ sources, source.location = location ∧
        ∃ style, processor.styleOf source.path = some style ∧
          Header.SameBody style content (change location content)

namespace Agree

variable {processor : Processor} {first second : FileSystem} {source : Source}
  {sources : List Source} {style : CommentStyle}

theorem refl (processor : Processor) (files : FileSystem) (sources : List Source) :
    processor.Agree files files sources :=
  ⟨fun _ content => content, files.mapFiles_keep.symm, fun _ _ _ => .inl rfl⟩

theorem eq_of_nil (agree : processor.Agree first second []) : second = first := by
  obtain ⟨change, rfl, contents⟩ := agree
  rw [← first.mapFiles_keep, FileSystem.mapFiles_mapFiles]
  apply FileSystem.mapFiles_congr
  intro location content found
  rcases contents location content found with same | ⟨_, member, _⟩
  · exact same
  · cases member

/-- Only the paths and places of the sources count. -/
theorem of_places {others : List Source} (agree : processor.Agree first second sources)
    (places : ∀ source ∈ sources, ∃ other ∈ others,
      other.path = source.path ∧ other.location = source.location) :
    processor.Agree first second others := by
  obtain ⟨change, same, contents⟩ := agree
  refine ⟨change, same, fun location content found => ?_⟩
  rcases contents location content found with kept | ⟨source, member, rfl, style, styled, bodies⟩
  · exact .inl kept
  · obtain ⟨other, inside, path, place⟩ := places source member
    exact .inr ⟨other, inside, place, style, path ▸ styled, bodies⟩

/-- Only the styles count; the notices may differ. -/
theorem of_styles {other : Processor} (agree : processor.Agree first second sources)
    (styles : other.styles = processor.styles) : other.Agree first second sources := by
  rw [Processor.Agree, styleOf_of_styles styles]
  exact agree

/-- Trees that agree still do after the same change to both, if it keeps off the sources. -/
theorem edit (agree : processor.Agree first second sources)
    {edit : List FileName → ByteArray → ByteArray}
    (keeps : ∀ source ∈ sources, ∀ content, edit source.location content = content) :
    processor.Agree (first.mapFiles edit) (second.mapFiles edit) sources := by
  classical
  obtain ⟨change, rfl, contents⟩ := agree
  refine ⟨fun location content =>
    if ∃ source ∈ sources, source.location = location then change location content else content, ?_, ?_⟩
  · rw [FileSystem.mapFiles_mapFiles, FileSystem.mapFiles_mapFiles]
    apply FileSystem.mapFiles_congr
    intro location content found
    by_cases kept : ∃ source ∈ sources, source.location = location
    · obtain ⟨source, member, rfl⟩ := id kept
      simp only [if_pos kept, keeps source member]
    · -- Away from the sources the trees do not differ.
      rcases contents location content found with same | ⟨source, member, place, _⟩
      · simp only [if_neg kept, same]
      · exact absurd ⟨source, member, place⟩ kept
  · intro location new found
    obtain ⟨old, before, written⟩ := FileSystem.nodeAt_mapFiles_eq_file.1 found
    by_cases kept : ∃ source ∈ sources, source.location = location
    · obtain ⟨source, member, rfl⟩ := id kept
      rw [keeps source member] at written
      subst written
      simp only [if_pos kept]
      exact contents source.location old before
    · exact .inl (if_neg kept)

theorem drop_unstyled (agree : processor.Agree first second (source :: sources))
    (unstyled : processor.styleOf source.path = none) : processor.Agree first second sources := by
  obtain ⟨change, same, contents⟩ := agree
  refine ⟨change, same, fun location content found => ?_⟩
  rcases contents location content found with kept | ⟨other, member, place, style, styled, bodies⟩
  · exact .inl kept
  · rcases List.mem_cons.1 member with rfl | member
    · rw [unstyled] at styled
      cases styled
    · exact .inr ⟨other, member, place, style, styled, bodies⟩

/-! ## One file -/

/-- A header comes off a source in both trees alike, if both hold a text there. -/
theorem strip_eq {change : List FileName → ByteArray → ByteArray}
    (contents : change source.location source.content = source.content ∨
      ∃ other ∈ source :: sources, other.location = source.location ∧
        ∃ style, processor.styleOf other.path = some style ∧
          Header.SameBody style source.content (change source.location source.content))
    (alone : source.location ∉ sources.map (·.location))
    (styled : processor.styleOf source.path = some style) :
    String.fromUTF8? source.content = none ∧
        String.fromUTF8? (change source.location source.content) = none ∨
      ∃ text other, String.fromUTF8? source.content = some text ∧
        String.fromUTF8? (change source.location source.content) = some other ∧
        Header.strip style text = Header.strip style other := by
  rcases contents with kept | ⟨other, member, place, chosen, found, text, changed, body, bodies⟩
  · rw [kept]
    cases decoded : String.fromUTF8? source.content with
    | none => exact .inl ⟨rfl, rfl⟩
    | some text => exact .inr ⟨text, text, rfl, rfl, rfl⟩
  · -- No other source stands at the place.
    have itself : other = source := by
      rcases List.mem_cons.1 member with same | member
      · exact same
      · exact absurd (List.mem_map.2 ⟨other, member, place⟩) alone
    have same : style = chosen := Option.some.inj (styled.symm.trans (itself ▸ found))
    subst same
    obtain ⟨decoded, decodedToo, stripped, strippedToo⟩ := bodies
    exact .inr ⟨text, changed, decoded, decodedToo, stripped.trans strippedToo.symm⟩

/-- With the same content put in one place, the trees agree on that place too. -/
theorem put (agree : processor.Agree first second (source :: sources)) (content : ByteArray) :
    processor.Agree (first.mapFiles (overwrite source.location content))
      (second.mapFiles (overwrite source.location content)) sources := by
  obtain ⟨change, rfl, contents⟩ := agree
  refine ⟨fun location old => if location = source.location then old else change location old, ?_, ?_⟩
  · rw [FileSystem.mapFiles_mapFiles, FileSystem.mapFiles_mapFiles]
    congr 1
    funext location old
    by_cases here : location = source.location
    · simp [overwrite, here]
    · simp [overwrite, here]
  · intro location new found
    obtain ⟨old, before, written⟩ := FileSystem.nodeAt_mapFiles_eq_file.1 found
    by_cases here : location = source.location
    · exact .inl (if_pos here)
    · have same : old = new := (if_neg here).symm.trans written
      rw [← same]
      simp only [if_neg here]
      rcases contents location old before with kept | ⟨other, member, place, rest⟩
      · exact .inl kept
      · rcases List.mem_cons.1 member with rfl | member
        · exact absurd place.symm here
        · exact .inr ⟨other, member, place, rest⟩

/-- An update of one source fails in both trees for the same reason, or puts the same content into
both. -/
theorem updateFile (agree : processor.Agree first second (source :: sources))
    (held : first.Holds source) (alone : source.location ∉ sources.map (·.location))
    (styled : processor.styleOf source.path = some style) :
    (∃ error, processor.updateFile style source.path first = (first, .error error) ∧
      processor.updateFile style source.path second = (second, .error error)) ∨
    ∃ content, processor.updateFile style source.path first =
        (first.mapFiles (overwrite source.location content), .ok ()) ∧
      processor.updateFile style source.path second =
        (second.mapFiles (overwrite source.location content), .ok ()) := by
  obtain ⟨change, rfl, contents⟩ := agree
  cases long : source.path.isTooLong with
  | true =>
    obtain ⟨error, leads⟩ := FileSystem.exists_error_of_isTooLong long first .use
    have leadsToo : (first.mapFiles change).resolve .use source.path = .error error := by
      rw [FileSystem.resolve_mapFiles, leads]
      rfl
    exact .inl ⟨_, updateFile_of_unreadable (by rw [FileSystem.readText, FileSystem.read, leads]),
      updateFile_of_unreadable (by rw [FileSystem.readText, FileSystem.read, leadsToo])⟩
  | false =>
    have heldToo := held.mapContent change
    rcases strip_eq (contents _ _ held.1) alone styled with
      ⟨undecodable, undecodableToo⟩ | ⟨text, other, decoded, decodedToo, same⟩
    · exact .inl ⟨_, updateFile_of_unreadable (held.readText_of_undecodable long undecodable),
        updateFile_of_unreadable (heldToo.readText_of_undecodable long undecodableToo)⟩
    · cases stripped : Header.strip style text with
      | error fault =>
        exact .inl ⟨_, updateFile_of_unclosed (held.readText_eq long decoded) stripped,
          updateFile_of_unclosed (heldToo.readText_eq long decodedToo) (same.symm.trans stripped)⟩
      | ok body =>
        exact .inr ⟨_, updateFile_eq_ok held long decoded stripped,
          updateFile_eq_ok heldToo long decodedToo (same.symm.trans stripped)⟩

/-! ## File after file -/

theorem updateAll (agree : processor.Agree first second sources)
    (held : ∀ source ∈ sources, first.Holds source) (apart : (sources.map (·.location)).Nodup)
    (summary : Summary) :
    (processor.updateAll (sources.map (·.path)) first summary).Matches
      (processor.updateAll (sources.map (·.path)) second summary) := by
  -- Each update settles one more place, so behind the last one the trees are the same.
  induction sources generalizing first second summary with
  | nil => exact ⟨rfl, rfl, fun _ _ => agree.eq_of_nil⟩
  | cons source sources ih =>
    obtain ⟨alone, apart⟩ := List.nodup_cons.1 apart
    have heldFirst := held source List.mem_cons_self
    have heldRest := fun other member => held other (List.mem_cons_of_mem source member)
    cases named : source.path.fileName with
    | none =>
      have unstyled : processor.styleOf source.path = none := by rw [styleOf, named]; rfl
      simp only [List.map_cons, Processor.updateAll, named]
      exact ih (agree.drop_unstyled unstyled) heldRest apart summary
    | some name =>
      have styleOf_eq : processor.styleOf source.path = processor.styles.resolve name := by
        rw [styleOf, named]
        rfl
      cases resolved : processor.styles.resolve name with
      | none =>
        have rest := ih (agree.drop_unstyled (styleOf_eq.trans resolved)) heldRest apart summary.skip
        simp only [List.map_cons, Processor.updateAll, named, resolved]
        exact ⟨congrArg (_ :: ·) rest.events, rest.outcome, rest.files⟩
      | some style =>
        rcases agree.updateFile heldFirst alone (styleOf_eq.trans resolved) with
          ⟨error, fails, failsToo⟩ | ⟨content, updates, updatesToo⟩
        · simp only [List.map_cons, Processor.updateAll, named, resolved, fails, failsToo]
          exact .of_error rfl rfl rfl
        · -- The others stand elsewhere, so they are still held.
          have stillHeld : ∀ other ∈ sources, (first.mapFiles
              (overwrite source.location content)).Holds other := by
            intro other member
            refine (heldRest other member).overwrite (fun same => ?_) _
            exact alone (List.mem_map.2 ⟨other, member, same⟩)
          have rest := ih (agree.put content) stillHeld apart (summary.record style.name)
          simp only [List.map_cons, Processor.updateAll, named, resolved, updates, updatesToo]
          exact ⟨congrArg (_ :: ·) rest.events, rest.outcome, rest.files⟩

/-- To a run, trees that agree on the files of its walk are the same. -/
theorem run {root : Path}
    (agree : processor.Agree first second (first.sources processor.exclusions root)) :
    (processor.run root first).Matches (processor.run root second) := by
  obtain ⟨change, rfl, -⟩ := id agree
  have walks := FileSystem.walk_mapFiles change first processor.exclusions root
  have collects := FileSystem.sourceFiles_mapFiles change first processor.exclusions root
  unfold Processor.run
  cases found : first.sourceFiles processor.exclusions root with
  | error error =>
    simp only [walks, collects, found]
    exact .of_error rfl rfl rfl
  | ok paths =>
    have rest := agree.updateAll (fun _ => FileSystem.holds_of_mem_sources)
      (first.nodup_sources _ root) .empty
    rw [FileSystem.map_path_sources found] at rest
    simp only [walks, collects, found, rest.events, rest.outcome]
    exact ⟨rfl, rfl, rest.files⟩

end Agree

end Processor

end CopyrightHeader

import CopyrightHeader.Proofs.Repetition

/-! What a run announces on its way, and how often.

Every file with a style is announced just before it is updated, in walking order. A run that fails
at a file has announced it and those in front of it; one that succeeds has announced as many files
as it counts.
-/

set_option autoImplicit false

namespace CopyrightHeader

/-- The messages of the events that are told as progress. -/
def Event.told (events : List Event) : List String :=
  (events.filter (·.channel = .progress)).map Event.message

namespace Event

@[simp] theorem told_append (front back : List Event) :
    told (front ++ back) = told front ++ told back := by
  simp [told]

@[simp] theorem told_nil : told [] = [] := rfl

theorem told_cons_of_progress {event : Event} (progress : event.channel = .progress)
    (events : List Event) : told (event :: events) = event.message :: told events := by
  simp [told, progress]

theorem told_cons_of_ne {event : Event} (other : event.channel ≠ .progress) (events : List Event) :
    told (event :: events) = told events := by
  simp [told, other]

@[simp] theorem told_processing (style : String) (path : Path) (events : List Event) :
    told (.processing style path :: events) =
      s!"Processing {style} file: {path.text}" :: told events :=
  told_cons_of_progress rfl events

@[simp] theorem told_unmatched (path : Path) (events : List Event) :
    told (.unmatched path :: events) = told events :=
  told_cons_of_ne (by simp [channel]) events

@[simp] theorem told_map_excluded (paths : List Path) : told (paths.map .excluded) = [] := by
  induction paths with
  | nil => rfl
  | cons path paths ih => exact (told_cons_of_ne (by simp [channel]) _).trans ih

end Event

/-! ## Counts -/

namespace Summary

theorem foldr_alterEntries (key : String) (entries : List (String × Nat)) :
    (SortedMap.alterEntries key (fun count => count.getD 0 + 1) entries).foldr
        (fun entry total => entry.2 + total) 0 =
      entries.foldr (fun entry total => entry.2 + total) 0 + 1 := by
  induction entries with
  | nil => rfl
  | cons entry entries ih =>
    rw [SortedMap.alterEntries]
    split
    · simp only [List.foldr_cons, Option.getD_none]
      omega
    · split
      · simp only [List.foldr_cons, Option.getD_some]
        omega
      · simp only [List.foldr_cons, ih]
        omega

@[simp] theorem total_empty : empty.total = 0 := rfl

@[simp] theorem total_skip (summary : Summary) : summary.skip.total = summary.total := rfl

@[simp] theorem total_record (summary : Summary) (style : String) :
    (summary.record style).total = summary.total + 1 :=
  foldr_alterEntries style summary.updated.entries

end Summary

namespace Processor

variable {processor : Processor} {path : Path}

/-- What is told of a file just before it is updated. Nothing is told of one without a style. -/
def announcement (processor : Processor) (path : Path) : Option String :=
  (processor.styleOf path).map fun style => s!"Processing {style.name} file: {path.text}"

theorem announcement_of_unstyled (unstyled : processor.styleOf path = none) :
    processor.announcement path = none := by
  rw [announcement, unstyled]
  rfl

theorem announcement_of_styled {style : CommentStyle} (styled : processor.styleOf path = some style) :
    processor.announcement path = some s!"Processing {style.name} file: {path.text}" := by
  rw [announcement, styled]
  rfl

theorem styleOf_eq_resolve {name : String} (named : path.fileName = some name) :
    processor.styleOf path = processor.styles.resolve name := by
  rw [styleOf, named]
  rfl

/-- Each file that is announced counts as one. -/
theorem total_foldl_tally (processor : Processor) (paths : List Path) (summary : Summary) :
    (paths.foldl processor.tally summary).total =
      summary.total + (paths.filterMap processor.announcement).length := by
  induction paths generalizing summary with
  | nil => rfl
  | cons path paths ih =>
    rw [List.foldl_cons, ih, tally]
    cases named : path.fileName with
    | none =>
      have unstyled : processor.styleOf path = none := by rw [styleOf, named]; rfl
      rw [List.filterMap_cons_none (announcement_of_unstyled unstyled)]
    | some name =>
      have styleOf_eq : processor.styleOf path = _ := styleOf_eq_resolve named
      cases resolved : processor.styles.resolve name with
      | none =>
        have unstyled := announcement_of_unstyled (styleOf_eq.trans resolved)
        simp only [resolved, List.filterMap_cons_none unstyled, Summary.total_skip]
      | some style =>
        have styled := announcement_of_styled (styleOf_eq.trans resolved)
        simp only [resolved, List.filterMap_cons_some styled, Summary.total_record, List.length_cons]
        omega

/-! ## Announcements -/

theorem file?_of_updateFile {style : CommentStyle} {files after : FileSystem} {error : RunError}
    (fails : processor.updateFile style path files = (after, .error error)) :
    error.file? = some path := by
  unfold updateFile at fails
  split at fails
  · cases fails
    rfl
  · split at fails
    · cases fails
      rfl
    · split at fails
      · cases fails
        rfl
      · cases fails

/-- What is told of a run over files: of all that have a style, or of those up to the one that it
fails at. -/
inductive Announces (processor : Processor) :
    (paths : List Path) → (outcome : Except RunError Summary) → (told : List String) → Prop where
  | finished {paths : List Path} {summary : Summary} :
      Announces processor paths (.ok summary) (paths.filterMap processor.announcement)
  | stopped {front back : List Path} {path : Path} {error : RunError}
      (about : error.file? = some path) :
      Announces processor (front ++ path :: back) (.error error)
        ((front ++ [path]).filterMap processor.announcement)

theorem announces_ok_iff {paths : List Path} {summary : Summary} {told : List String} :
    processor.Announces paths (.ok summary) told ↔ told = paths.filterMap processor.announcement := by
  constructor
  · intro announces
    cases announces
    rfl
  · rintro rfl
    exact .finished

theorem announces_error_iff {paths : List Path} {error : RunError} {told : List String} :
    processor.Announces paths (.error error) told ↔
      ∃ front path back, paths = front ++ path :: back ∧ error.file? = some path ∧
        told = (front ++ [path]).filterMap processor.announcement := by
  constructor
  · intro announces
    cases announces with
    | stopped about => exact ⟨_, _, _, rfl, about, rfl⟩
  · rintro ⟨front, path, back, rfl, about, rfl⟩
    exact .stopped about

/-- A file that does not end the run is told of in front of the others. -/
theorem Announces.cons {paths : List Path} {outcome : Except RunError Summary} {told : List String}
    (announces : processor.Announces paths outcome told) (path : Path) :
    processor.Announces (path :: paths) outcome ((processor.announcement path).toList ++ told) := by
  have inFront (reached : List Path) :
      (processor.announcement path).toList ++ reached.filterMap processor.announcement =
        (path :: reached).filterMap processor.announcement := by
    cases announced : processor.announcement path with
    | none => rw [List.filterMap_cons_none announced]; rfl
    | some message => rw [List.filterMap_cons_some announced]; rfl
  cases announces with
  | finished =>
    rw [inFront]
    exact .finished
  | @stopped front back failing error about =>
    rw [inFront]
    exact @Announces.stopped processor (path :: front) back failing error about

theorem announces_updateAll (processor : Processor) (paths : List Path) (files : FileSystem)
    (summary : Summary) :
    processor.Announces paths (processor.updateAll paths files summary).outcome
      (Event.told (processor.updateAll paths files summary).events) := by
  induction paths generalizing files summary with
  | nil => exact .finished
  | cons path paths ih =>
    cases named : path.fileName with
    | none =>
      have unstyled : processor.styleOf path = none := by rw [styleOf, named]; rfl
      have told := (ih files summary).cons path
      rw [announcement_of_unstyled unstyled] at told
      simp only [updateAll, named]
      exact told
    | some name =>
      have styleOf_eq : processor.styleOf path = _ := styleOf_eq_resolve named
      cases resolved : processor.styles.resolve name with
      | none =>
        have told := (ih files summary.skip).cons path
        rw [announcement_of_unstyled (styleOf_eq.trans resolved)] at told
        simp only [updateAll, named, resolved, Event.told_unmatched]
        exact told
      | some style =>
        have announced := announcement_of_styled (styleOf_eq.trans resolved)
        rcases updates : processor.updateFile style path files with ⟨after, error | done⟩
        -- The announcement is made before the update can fail.
        · have told := @Announces.stopped processor [] paths path error (file?_of_updateFile updates)
          simp only [List.nil_append, List.filterMap_cons_some announced] at told
          simp only [updateAll, named, resolved, updates, Event.told_processing]
          exact told
        · have told := (ih after (summary.record style.name)).cons path
          rw [announced] at told
          simp only [updateAll, named, resolved, updates, Event.told_processing]
          exact told

end Processor

end CopyrightHeader

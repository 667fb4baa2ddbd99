import CopyrightHeader.Proofs.Announcements
import CopyrightHeader.Proofs.PathNames

/-! What the summary of a run counts.

Every file that a walk collects has a name. If its name has a style it counts for what the style is
called, else as skipped, so the counts add up to the length of the walk. Styles that are called the
same share a count.
-/

set_option autoImplicit false

namespace CopyrightHeader

/-! ## Looking up what was changed -/

namespace SortedMap

variable {α : Type} {key other : String} {change : Option α → α} {entries : List (String × α)}

theorem lookup_cons (entry : String × α) (rest : List (String × α)) (key : String) :
    (entry :: rest).lookup key = if key = entry.1 then some entry.2 else rest.lookup key := by
  by_cases same : key = entry.1
  · rw [List.lookup_cons, if_pos same, beq_iff_eq.2 same]
  · rw [List.lookup_cons, if_neg same, beq_eq_false_iff_ne.2 same]

theorem lookup_eq_none_of_lt (above : ∀ entry ∈ entries, key < entry.1) :
    entries.lookup key = none := by
  rw [List.lookup_eq_none_iff]
  intro entry member
  have differs : key ≠ entry.1 := fun same => String.lt_irrefl key (same ▸ above entry member)
  simpa using differs

theorem lookup_alterEntries (increasing : entries.Pairwise fun a b => a.1 < b.1) :
    (alterEntries key change entries).lookup other =
      if other = key then some (change (entries.lookup key)) else entries.lookup other := by
  induction entries with
  | nil => exact lookup_cons _ _ _
  | cons head rest ih =>
    obtain ⟨above, increasing⟩ := List.pairwise_cons.1 increasing
    rw [alterEntries]
    split
    · next less =>
      have fresh : (head :: rest).lookup key = none := by
        refine lookup_eq_none_of_lt (List.forall_mem_cons.2 ⟨less, fun entry member => ?_⟩)
        exact String.lt_trans less (above entry member)
      rw [fresh, lookup_cons]
    · split
      · next same =>
        rw [lookup_cons, lookup_cons, if_pos same, lookup_cons, ← same]
        split <;> rfl
      · next differs =>
        rw [lookup_cons, ih increasing, lookup_cons, if_neg differs, lookup_cons]
        by_cases here : other = key
        · rw [if_neg (here ▸ differs), if_pos here, if_pos here]
        · rw [if_neg here, if_neg here]

theorem get?_alter (map : SortedMap α) (key other : String) (change : Option α → α) :
    (map.alter key change).get? other =
      if other = key then some (change (map.get? key)) else map.get? other :=
  lookup_alterEntries map.increasing

end SortedMap

namespace Summary

/-- How often files of a style were counted. -/
def count (summary : Summary) (style : String) : Nat := (summary.updated.get? style).getD 0

theorem get?_record (summary : Summary) (style other : String) :
    (summary.record style).updated.get? other =
      if other = style then some (summary.count style + 1) else summary.updated.get? other :=
  SortedMap.get?_alter ..

end Summary

/-! ## Rules that share a count -/

/-- How many of the names get a style that is called so. A rule counts what it accepts of the names
that the rules in front of it leave. -/
def StyleTable.countByRule (style : String) : List StyleRule → List String → Nat
  | [], _ => 0
  | rule :: rules, names =>
    (if rule.style.name = style then names.countP rule.matcher.accepts else 0) +
      countByRule style rules (names.filter fun name => !rule.matcher.accepts name)

theorem StyleTable.resolve_cons (rule : StyleRule) (rules : List StyleRule) (name : String) :
    (StyleTable.mk (rule :: rules)).resolve name =
      if rule.matcher.accepts name then some rule.style else (StyleTable.mk rules).resolve name := by
  rw [resolve, List.find?_cons]
  cases rule.matcher.accepts name <;> rfl

theorem StyleTable.countP_resolve (style : String) (rules : List StyleRule) (names : List String) :
    names.countP (fun name => ((StyleTable.mk rules).resolve name).map (·.name) = some style) =
      countByRule style rules names := by
  induction rules generalizing names with
  | nil => simp [resolve, countByRule]
  | cons rule rules ih =>
    rw [countByRule, ← ih, List.countP_eq_countP_filter_add names _ rule.matcher.accepts]
    congr 1
    · rw [List.countP_filter]
      split
      · next same =>
        refine List.countP_congr fun name _ => ?_
        cases accepts : rule.matcher.accepts name <;> simp [resolve_cons, accepts, same]
      · next differs =>
        refine List.countP_eq_zero.2 fun name _ => ?_
        cases accepts : rule.matcher.accepts name <;> simp [resolve_cons, accepts, differs]
    · refine List.countP_congr fun name member => ?_
      have passes := (List.mem_filter.1 member).2
      rw [Bool.not_eq_true'] at passes
      simp only [resolve_cons, passes, Bool.false_eq_true, if_false]

/-! ## The loop -/

namespace Processor

variable {processor : Processor} {path : Path} {paths done : List Path} {summary : Summary}

/-- What the style is called that the name of a file has. -/
def styleName (processor : Processor) (path : Path) : Option String :=
  (processor.styleOf path).map (·.name)

theorem tally_of_named {name : String} (named : path.fileName = some name) :
    processor.tally summary path =
      match processor.styleName path with
      | none => summary.skip
      | some style => summary.record style := by
  rw [styleName, styleOf_eq_resolve named]
  simp only [tally, named]
  cases processor.styles.resolve name <;> rfl

/-- The summary counts each of the files once. -/
structure Accounts (processor : Processor) (paths : List Path) (summary : Summary) : Prop where
  updated : ∀ style count, summary.updated.get? style = some count ↔
    0 < count ∧ count = paths.countP (processor.styleName · = some style)
  skipped : summary.skipped = paths.countP (processor.styleName · = none)
  total : summary.total + summary.skipped = paths.length

theorem accounts_nil (processor : Processor) : processor.Accounts [] .empty where
  updated style count := by
    have none : Summary.empty.updated.get? style = Option.none := rfl
    rw [none, List.countP_nil]
    exact ⟨nofun, fun ⟨positive, zero⟩ => absurd positive (zero ▸ Nat.lt_irrefl 0)⟩
  skipped := rfl
  total := rfl

theorem Accounts.count_eq (accounts : processor.Accounts done summary) (style : String) :
    summary.count style = done.countP (processor.styleName · = some style) := by
  rw [Summary.count]
  cases found : summary.updated.get? style with
  | some count => exact ((accounts.updated style count).1 found).2
  | none =>
    by_contra differs
    have positive := Nat.pos_of_ne_zero (Ne.symm differs)
    rw [(accounts.updated style _).2 ⟨positive, rfl⟩] at found
    cases found

theorem Accounts.skip (accounts : processor.Accounts done summary)
    (unstyled : processor.styleName path = none) :
    processor.Accounts (done ++ [path]) summary.skip where
  updated style count := by
    rw [List.countP_append, List.countP_singleton]
    simpa [unstyled, Summary.skip] using accounts.updated style count
  skipped := by
    rw [List.countP_append, ← accounts.skipped]
    simp [unstyled, Summary.skip]
  total := by
    rw [List.length_append, ← accounts.total]
    rfl

theorem Accounts.record (accounts : processor.Accounts done summary) {style : String}
    (styled : processor.styleName path = some style) :
    processor.Accounts (done ++ [path]) (summary.record style) where
  updated other count := by
    rw [List.countP_append, List.countP_singleton, Summary.get?_record, styled]
    by_cases same : other = style
    · rw [if_pos same, accounts.count_eq, same]
      simp
      omega
    · rw [if_neg same, accounts.updated other count]
      simp [Ne.symm same]
  skipped := by
    rw [List.countP_append, ← accounts.skipped]
    simp [styled, Summary.record]
  total := by
    rw [List.length_append, ← accounts.total, Summary.total_record]
    exact Nat.add_right_comm ..

theorem Accounts.tally (accounts : processor.Accounts done summary) {name : String}
    (named : path.fileName = some name) :
    processor.Accounts (done ++ [path]) (processor.tally summary path) := by
  rw [tally_of_named named]
  cases styled : processor.styleName path with
  | none => exact accounts.skip styled
  | some style => exact accounts.record styled

theorem Accounts.foldl_tally (accounts : processor.Accounts done summary)
    (named : ∀ path ∈ paths, ∃ name, path.fileName = some name) :
    processor.Accounts (done ++ paths) (paths.foldl processor.tally summary) := by
  induction paths generalizing done summary with
  | nil => rwa [List.append_nil]
  | cons path paths ih =>
    obtain ⟨⟨name, first⟩, named⟩ := List.forall_mem_cons.1 named
    rw [List.foldl_cons, List.append_cons]
    exact ih (accounts.tally first) named

/-- The counts of a run that succeeds account for all files of its walk. Each of them has a name, and
a style counts the files whose name has a style that is called so, whichever rules give it. -/
theorem run_accounts_for_files {root : Path} {files : FileSystem}
    (succeeds : (processor.run root files).outcome = .ok summary) :
    ∃ paths, files.sourceFiles processor.exclusions root = .ok paths ∧
      (∀ path ∈ paths, ∃ name, path.fileName = some name) ∧ processor.Accounts paths summary ∧
      ∀ style, paths.countP (processor.styleName · = some style) =
        StyleTable.countByRule style processor.styles.rules (paths.filterMap Path.fileName) := by
  cases found : files.sourceFiles processor.exclusions root with
  | error error =>
    rw [(run_of_walk_error found).2] at succeeds
    cases succeeds
  | ok paths =>
    have named : ∀ path ∈ paths, ∃ name, path.fileName = some name := by
      rw [← FileSystem.map_path_sources found, List.forall_mem_map]
      intro source member
      obtain ⟨-, name, -, named⟩ := FileSystem.fileName_of_mem_sources member
      exact ⟨name.text, named⟩
    refine ⟨paths, rfl, named, ?_, fun style => ?_⟩
    · rcases run_cases found with ⟨-, outcome, -⟩ | ⟨_, _, _, _, _, _, _, _, outcome, -⟩
      · cases succeeds.symm.trans outcome
        exact (accounts_nil processor).foldl_tally named
      · cases succeeds.symm.trans outcome
    · rw [← StyleTable.countP_resolve, List.countP_filterMap]
      refine List.countP_congr fun path member => ?_
      obtain ⟨name, same⟩ := named path member
      simp [styleName, styleOf, same]

/-- A rule for a file name of its own, whose style is called like a built-in one. -/
def sharing : Processor :=
  ⟨.default, ⟨⟨.exact "C", ⟨"C-style", "//-", "//", "//"⟩⟩ :: StyleTable.builtin.rules⟩, .default⟩

def sharedFiles : FileSystem where
  top := .leaf ⟨"C", by decide⟩ (.file "x\n".toUTF8)
    (.leaf ⟨"cpu.c", by decide⟩ (.file "y\n".toUTF8)
      (.leaf ⟨"todo.txt", by decide⟩ (.file ⟨#[0xff]⟩) .nil))
  workingDirectory := []
  ordered := by decide
  startsInFolder := ⟨_, rfl⟩

theorem run_accounts_for_shared_name :
    ∃ summary, (sharing.run ⟨"."⟩ sharedFiles).outcome = .ok summary ∧
      summary.updated.get? "C-style" = some 2 ∧ summary.updated.get? "Shell-style" = none ∧
      summary.skipped = 1 ∧ summary.total = 2 ∧
      StyleTable.countByRule "C-style" sharing.styles.rules ["C", "cpu.c", "todo.txt"] = 2 := by
  have isOk : (sharing.run ⟨"."⟩ sharedFiles).outcome.isOk = true := by decide +kernel
  cases succeeds : (sharing.run ⟨"."⟩ sharedFiles).outcome with
  | error error => simp [succeeds, Except.isOk, Except.toBool] at isOk
  | ok summary =>
    obtain ⟨paths, found, -, accounts, shares⟩ := run_accounts_for_files succeeds
    have walked : sharedFiles.sourceFiles sharing.exclusions ⟨"."⟩ =
        .ok [⟨"./C"⟩, ⟨"./cpu.c"⟩, ⟨"./todo.txt"⟩] := by rfl
    cases walked.symm.trans found
    have counted : summary.updated.get? "C-style" = some 2 :=
      (accounts.updated _ _).2 ⟨by decide, by decide +kernel⟩
    have uncounted : summary.updated.get? "Shell-style" = none := by
      refine Option.eq_none_iff_forall_ne_some.2 fun count counted => ?_
      obtain ⟨positive, same⟩ := (accounts.updated _ _).1 counted
      exact absurd (same ▸ positive) (by decide +kernel)
    have skipped : summary.skipped = 1 := accounts.skipped.trans (by decide +kernel)
    have total := accounts.total
    rw [skipped] at total
    exact ⟨summary, rfl, counted, uncounted, skipped, Nat.succ.inj total,
      (shares "C-style").symm.trans (by decide +kernel)⟩

end Processor

end CopyrightHeader

import CopyrightHeader.Exclusions
import CopyrightHeader.Proofs.PathComponents
import Mathlib.Data.List.Basic
import Mathlib.Data.List.Forall2

/-! Which folders a set of exclusions leaves out.

A folder is left out if its components are those of the root and then, first of all, those of an
entry. How the entry was written has no part in it.
-/

set_option autoImplicit false

namespace CopyrightHeader.Exclusions

theorem normalize_eq_some {entry : String} {subtree : Path} :
    normalize entry = some subtree ↔
      (Path.mk entry).way ≠ [] ∧ subtree = .ofComponents (Path.mk entry).way := by
  unfold normalize
  split
  · next nothing =>
    constructor
    · exact nofun
    · rintro ⟨something, -⟩
      exact absurd nothing something
  · next something =>
    constructor
    · intro same
      exact ⟨something, (Option.some.inj same).symm⟩
    · rintro ⟨-, rfl⟩
      rfl

theorem components_of_normalize {entry : String} {subtree : Path}
    (normal : normalize entry = some subtree) : subtree.components = (Path.mk entry).way := by
  obtain ⟨-, rfl⟩ := normalize_eq_some.1 normal
  exact Path.components_ofComponents_way _

/-- The plainest form of an entry is its own plainest form. -/
theorem normalize_of_normalize {entry : String} {subtree : Path}
    (normal : normalize entry = some subtree) : normalize subtree.text = some subtree := by
  obtain ⟨something, same⟩ := normalize_eq_some.1 normal
  have read : subtree.way = (Path.mk entry).way := by
    rw [same, Path.way_ofComponents_way]
  refine normalize_eq_some.2 ⟨?_, ?_⟩
  · change subtree.way ≠ []
    rw [read]
    exact something
  · change subtree = .ofComponents subtree.way
    rw [read]
    exact same

theorem mem_subtrees {entries : List String} {subtree : Path} :
    subtree ∈ (ofEntries entries).subtrees ↔ ∃ entry ∈ entries, normalize entry = some subtree :=
  List.mem_filterMap

theorem excludes_iff {exclusions : Exclusions} {root directory : Path} :
    exclusions.excludes root directory = true ↔
      ∃ relative, relative ≠ [] ∧ directory.components = root.components ++ relative ∧
        ∃ subtree ∈ exclusions.subtrees, subtree.components <+: relative := by
  unfold excludes
  split
  · next outside =>
    constructor
    · exact nofun
    · rintro ⟨relative, -, inside, -⟩
      cases outside.symm.trans (Path.stripBase_eq_some.2 inside)
  · next relative inside =>
    have unique (other : List Path.Component) :
        directory.components = root.components ++ other ↔ relative = other := by
      rw [Path.stripBase_eq_some.1 inside, List.append_cancel_left_eq]
    simp only [unique]
    constructor
    · intro excluded
      exact ⟨relative, by simpa using excluded⟩
    · rintro ⟨_, something, rfl, front⟩
      simpa [something] using front

/-- The same in terms of the entries as they are written. -/
theorem excludes_ofEntries_iff {entries : List String} {root directory : Path} :
    (ofEntries entries).excludes root directory = true ↔
      ∃ relative, relative ≠ [] ∧ directory.components = root.components ++ relative ∧
        ∃ entry ∈ entries, (Path.mk entry).way ≠ [] ∧ (Path.mk entry).way <+: relative := by
  rw [excludes_iff]
  constructor
  · rintro ⟨relative, below, inside, subtree, member, front⟩
    obtain ⟨entry, written, normal⟩ := mem_subtrees.1 member
    rw [components_of_normalize normal] at front
    exact ⟨relative, below, inside, entry, written, (normalize_eq_some.1 normal).1, front⟩
  · rintro ⟨relative, below, inside, entry, written, something, front⟩
    have normal := normalize_eq_some.2 ⟨something, rfl⟩
    rw [← components_of_normalize normal] at front
    exact ⟨relative, below, inside, _, mem_subtrees.2 ⟨entry, written, normal⟩, front⟩

theorem ofEntries_eq_of_spelledAlike {entries others : List String}
    (alike : List.Forall₂ Path.SpelledAlike entries others) : ofEntries entries = ofEntries others := by
  have same : entries.filterMap normalize = others.filterMap normalize := by
    induction alike with
    | nil => rfl
    | @cons entry other entries others first _ ih =>
      have normal : normalize entry = normalize other := by
        apply Option.ext
        intro subtree
        rw [normalize_eq_some, normalize_eq_some, Path.way_eq_of_spelledAlike first]
      rw [List.filterMap_cons, List.filterMap_cons, normal, ih]
  rw [ofEntries, ofEntries, same]

/-- The subtrees of a set are entries for the same set. -/
theorem ofEntries_subtrees (entries : List String) :
    ofEntries ((ofEntries entries).subtrees.map (·.text)) = ofEntries entries := by
  have same : ∀ subtree ∈ (ofEntries entries).subtrees, normalize subtree.text = some subtree := by
    intro subtree member
    obtain ⟨entry, -, normal⟩ := mem_subtrees.1 member
    exact normalize_of_normalize normal
  rw [ofEntries, List.filterMap_map]
  congr 1
  exact (List.filterMap_congr same).trans List.filterMap_some

/-- A folder is left out if and only if the way from the root to it is not empty and begins with the
way of an entry that leads somewhere. So the root is never left out, what is below a folder that is
left out is left out as well, and entries may be spelled in other ways or given in their plainest
form. -/
theorem excludes_iff_entry_leads_to (entries : List String) :
    (∀ root directory, (ofEntries entries).excludes root directory = true ↔
      ∃ relative, relative ≠ [] ∧ directory.components = root.components ++ relative ∧
        ∃ entry ∈ entries,
          let way := (Path.mk entry).components.filter (· ≠ .current)
          way ≠ [] ∧ way <+: relative) ∧
    (∀ root directory : Path, directory.components = root.components →
      (ofEntries entries).excludes root directory = false) ∧
    (∀ root directory below : Path, ∀ more, below.components = directory.components ++ more →
      (ofEntries entries).excludes root directory = true →
        (ofEntries entries).excludes root below = true) ∧
    (∀ others, List.Forall₂ Path.SpelledAlike entries others → ∀ root directory,
      (ofEntries others).excludes root directory = (ofEntries entries).excludes root directory) ∧
    ofEntries ((ofEntries entries).subtrees.map (·.text)) = ofEntries entries := by
  refine ⟨fun root directory => excludes_ofEntries_iff, fun root directory same => ?_,
    fun root directory below more longer excluded => ?_, fun others alike root directory => ?_,
    ofEntries_subtrees entries⟩
  · refine Bool.eq_false_iff.2 fun excluded => ?_
    obtain ⟨relative, something, inside, -⟩ := excludes_iff.1 excluded
    rw [same] at inside
    exact something (List.append_right_eq_self.1 inside.symm)
  · obtain ⟨relative, something, inside, subtree, member, front⟩ := excludes_iff.1 excluded
    refine excludes_iff.2 ⟨relative ++ more, by simp [something], ?_, subtree, member, ?_⟩
    · rw [longer, inside, List.append_assoc]
    · exact front.trans (List.prefix_append relative more)
  · rw [ofEntries_eq_of_spelledAlike alike]

/-- An entry with a dot in front, and the same entry with more separators. -/
theorem excludes_build_output :
    (ofEntries ["./build/out"]).excludes ⟨"/work"⟩ ⟨"/work/build/out"⟩ = true ∧
      (ofEntries ["./build/out"]).excludes ⟨"/work"⟩ ⟨"/work//build/./out/gen"⟩ = true ∧
      (ofEntries ["build//out/"]).excludes ⟨"/work"⟩ ⟨"/work/build/out"⟩ = true ∧
      (ofEntries ["./build/out"]).excludes ⟨"/work"⟩ ⟨"/work/./"⟩ = false ∧
      (ofEntries ["./build/out"]).excludes ⟨"/work"⟩ ⟨"/work/build/output"⟩ = false := by
  obtain ⟨leadsTo, atRoot, inherited, respelled, -⟩ := excludes_iff_entry_leads_to ["./build/out"]
  have there : (ofEntries ["./build/out"]).excludes ⟨"/work"⟩ ⟨"/work/build/out"⟩ = true :=
    (leadsTo _ _).2 ⟨[.name "build", .name "out"], by decide, by decide, "./build/out", by decide,
      by decide, by decide⟩
  refine ⟨there, ?_, ?_, atRoot _ _ (by decide), by decide⟩
  · exact inherited _ _ ⟨"/work//build/./out/gen"⟩ [.name "gen"] (by decide) there
  · have alike : Path.SpelledAlike "./build/out" "build//out/" := by
      have plain : Relation.EqvGen Path.Respells "build/out".toList "./build/out".toList :=
        .rel _ _ (.leadingDot (by decide))
      have doubled : Relation.EqvGen Path.Respells "build/out".toList "build//out".toList :=
        .rel _ _ (.separator "build".toList "out".toList)
      have ended : Relation.EqvGen Path.Respells "build//out".toList "build//out/".toList :=
        .rel _ _ (.final (by decide))
      exact (plain.symm _ _).trans _ _ _ (doubled.trans _ _ _ ended)
    exact (respelled _ (.cons alike .nil) _ _).trans there

end CopyrightHeader.Exclusions

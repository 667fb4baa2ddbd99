import CopyrightHeader.Proofs.Convergence
import CopyrightHeader.Proofs.DecidingSource
import CopyrightHeader.Proofs.ExcludedSubtrees
import CopyrightHeader.Proofs.StylePrecedence

/-! What an accepted configuration guarantees.

A configuration is accepted if nothing in it is at fault, and else the first fault is reported. What
is checked in the configuration holds of the table and of the subtrees that are made from it: the
built-in rules have markers too, and an entry loses its dots but never gains a root.
-/

set_option autoImplicit false

namespace CopyrightHeader

/-- Both markers say something. -/
structure Framing.HasMarkers (framing : Framing) : Prop where
  opening : framing.opening ≠ ""
  closing : framing.closing ≠ ""

instance (framing : Framing) : Decidable framing.HasMarkers :=
  decidable_of_iff (framing.opening ≠ "" ∧ framing.closing ≠ "")
    ⟨fun both => ⟨both.1, both.2⟩, fun marked => ⟨marked.opening, marked.closing⟩⟩

/-- What is wrong with the markers; the opening one is looked at first. -/
inductive Framing.Lacks (framing : Framing) : StyleFault → Prop where
  | opening (empty : framing.opening = "") : Lacks framing .emptyOpening
  | closing (opens : framing.opening ≠ "") (empty : framing.closing = "") :
      Lacks framing .emptyClosing

/-- A relative path that is written with nothing idle in it. -/
structure Path.IsPlain (path : Path) : Prop where
  notEmpty : path.text ≠ ""
  relative : path.isAbsolute = false
  noDots : .current ∉ path.components
  parts : ∀ part ∈ splitSeparators path.text.toList, part ≠ [] ∧ part ≠ ['.']

namespace Config

/-- Some style under this key has an empty marker. -/
def Unmarked (map : SortedMap Framing) (key : String) : Prop :=
  ∃ framing, (key, framing) ∈ map.entries ∧ ¬ framing.HasMarkers

def AllMarked (map : SortedMap Framing) : Prop := ∀ entry ∈ map.entries, entry.2.HasMarkers

instance (map : SortedMap Framing) : Decidable (AllMarked map) :=
  inferInstanceAs (Decidable (∀ entry ∈ map.entries, entry.2.HasMarkers))

def IsDotted (key : String) : Prop := key.toList.head? = some '.'

instance (key : String) : Decidable (IsDotted key) :=
  inferInstanceAs (Decidable (key.toList.head? = some '.'))

/-- An entry that says something and is read from the root of the tree. -/
structure IsRelative (entry : String) : Prop where
  notEmpty : entry ≠ ""
  relative : entry.toList.head? ≠ some '/'

instance (entry : String) : Decidable (IsRelative entry) :=
  decidable_of_iff (entry ≠ "" ∧ entry.toList.head? ≠ some '/')
    ⟨fun both => ⟨both.1, both.2⟩, fun passes => ⟨passes.notEmpty, passes.relative⟩⟩

inductive RefusesEntry (entry : String) : ExcludeFault → Prop where
  | empty (nothing : entry = "") : RefusesEntry entry .empty
  | absolute (atRoot : entry.toList.head? = some '/') : RefusesEntry entry .absolute

/-- Nothing in a configuration is at fault. -/
structure Sound (config : Config) : Prop where
  extensions : AllMarked config.extensions
  fileNames : AllMarked config.fileNames
  undotted : ∀ key ∈ config.extensions.keys, ¬ IsDotted key
  exclude : ∀ entry ∈ config.exclude.getD [], IsRelative entry

/-- The first fault of a configuration, pass by pass. -/
inductive FirstFault (config : Config) : ConfigError → Prop where
  | extension {key : String} {framing : Framing} {fault : StyleFault}
      (least : config.extensions.Least (Unmarked config.extensions) key framing)
      (lacks : framing.Lacks fault) : FirstFault config (.invalidStyle key fault)
  | fileName {key : String} {framing : Framing} {fault : StyleFault}
      (extensions : AllMarked config.extensions)
      (least : config.fileNames.Least (Unmarked config.fileNames) key framing)
      (lacks : framing.Lacks fault) : FirstFault config (.invalidStyle key fault)
  | dotted {key : String} {framing : Framing} (extensions : AllMarked config.extensions)
      (fileNames : AllMarked config.fileNames)
      (least : config.extensions.Least IsDotted key framing) :
      FirstFault config (.invalidStyle key .leadingDot)
  | exclude {front back : List String} {entry : String} {fault : ExcludeFault}
      (extensions : AllMarked config.extensions) (fileNames : AllMarked config.fileNames)
      (undotted : ∀ key ∈ config.extensions.keys, ¬ IsDotted key)
      (written : config.exclude = some (front ++ entry :: back))
      (passed : ∀ earlier ∈ front, IsRelative earlier) (refused : RefusesEntry entry fault) :
      FirstFault config (.invalidExclude entry fault)

variable {config : Config} {map : SortedMap Framing} {entry : String × Framing} {error : ConfigError}

/-! ## One check -/

theorem markerFault_eq_some_iff : markerFault entry = some error ↔
    ∃ fault, entry.2.Lacks fault ∧ error = .invalidStyle entry.1 fault := by
  unfold markerFault
  constructor
  · intro found
    split at found
    · next empty =>
      cases found
      exact ⟨_, .opening empty, rfl⟩
    · next opens =>
      split at found
      · next empty =>
        cases found
        exact ⟨_, .closing opens empty, rfl⟩
      · cases found
  · rintro ⟨fault, lacks, rfl⟩
    cases lacks with
    | opening empty => rw [if_pos empty]
    | closing opens empty => rw [if_neg opens, if_pos empty]

theorem markerFault_eq_none_iff : markerFault entry = none ↔ entry.2.HasMarkers := by
  unfold markerFault
  constructor
  · intro passes
    split at passes
    · cases passes
    · next opens =>
      split at passes
      · cases passes
      · next closes => exact ⟨opens, closes⟩
  · intro marked
    rw [if_neg marked.opening, if_neg marked.closing]

theorem dotFault_eq_some_iff : dotFault entry = some error ↔
    IsDotted entry.1 ∧ error = .invalidStyle entry.1 .leadingDot := by
  rw [dotFault, Option.ite_none_right_eq_some, Option.some.injEq, eq_comm (b := error)]
  rfl

theorem dotFault_eq_none_iff : dotFault entry = none ↔ ¬ IsDotted entry.1 := by
  simp [dotFault, IsDotted]

theorem excludeFault_eq_some_iff {entry : String} : excludeFault entry = some error ↔
    ∃ fault, RefusesEntry entry fault ∧ error = .invalidExclude entry fault := by
  unfold excludeFault
  constructor
  · intro found
    split at found
    · next nothing =>
      cases found
      exact ⟨_, .empty nothing, rfl⟩
    · split at found
      · next atRoot =>
        cases found
        exact ⟨_, .absolute (Path.isAbsolute_iff.1 atRoot), rfl⟩
      · cases found
  · rintro ⟨fault, refused, rfl⟩
    cases refused with
    | empty nothing => rw [if_pos nothing]
    | absolute atRoot =>
      have something : entry ≠ "" := by
        rintro rfl
        cases atRoot
      rw [if_neg something, if_pos (Path.isAbsolute_iff.2 atRoot)]

theorem excludeFault_eq_none_iff {entry : String} : excludeFault entry = none ↔ IsRelative entry := by
  unfold excludeFault
  constructor
  · intro passes
    split at passes
    · cases passes
    · next something =>
      split at passes
      · cases passes
      · next relative => exact ⟨something, mt Path.isAbsolute_iff.2 relative⟩
  · intro passes
    rw [if_neg passes.notEmpty, if_neg (mt Path.isAbsolute_iff.1 passes.relative)]

/-! ## One pass -/

theorem unmarked_iff (isEntry : entry ∈ map.entries) :
    Unmarked map entry.1 ↔ ¬ entry.2.HasMarkers := by
  constructor
  · rintro ⟨framing, isEntry', unmarked⟩
    have same : (entry.1, framing) = entry :=
      List.inj_on_of_nodup_map map.nodup_keys isEntry' isEntry rfl
    rwa [← same]
  · intro unmarked
    exact ⟨entry.2, isEntry, unmarked⟩

theorem findSome?_markerFault_eq_none_iff :
    map.entries.findSome? markerFault = none ↔ AllMarked map := by
  rw [List.findSome?_eq_none_iff]
  exact forall₂_congr fun _ _ => markerFault_eq_none_iff

theorem findSome?_markerFault_eq_some_iff : map.entries.findSome? markerFault = some error ↔
    ∃ key framing fault, map.Least (Unmarked map) key framing ∧ framing.Lacks fault ∧
      error = .invalidStyle key fault := by
  rw [SortedMap.findSome?_eq_some_iff fun entry isEntry =>
    (unmarked_iff isEntry).trans (not_congr markerFault_eq_none_iff.symm)]
  simp only [markerFault_eq_some_iff, exists_and_left]

theorem findSome?_dotFault_eq_none_iff :
    map.entries.findSome? dotFault = none ↔ ∀ key ∈ map.keys, ¬ IsDotted key := by
  rw [List.findSome?_eq_none_iff, SortedMap.keys, List.forall_mem_map]
  exact forall₂_congr fun _ _ => dotFault_eq_none_iff

theorem findSome?_dotFault_eq_some_iff : map.entries.findSome? dotFault = some error ↔
    ∃ key framing, map.Least IsDotted key framing ∧ error = .invalidStyle key .leadingDot := by
  rw [SortedMap.findSome?_eq_some_iff fun entry _ =>
    (not_iff_comm.1 dotFault_eq_none_iff.symm).symm]
  simp only [dotFault_eq_some_iff]
  constructor
  · rintro ⟨key, framing, least, -, same⟩
    exact ⟨key, framing, least, same⟩
  · rintro ⟨key, framing, least, same⟩
    exact ⟨key, framing, least, least.asked, same⟩

theorem findSome?_excludeFault_eq_none_iff {entries : List String} :
    entries.findSome? excludeFault = none ↔ ∀ entry ∈ entries, IsRelative entry := by
  rw [List.findSome?_eq_none_iff]
  exact forall₂_congr fun _ _ => excludeFault_eq_none_iff

theorem findSome?_excludeFault_eq_some_iff :
    (config.exclude.getD []).findSome? excludeFault = some error ↔
      ∃ front entry back fault, config.exclude = some (front ++ entry :: back) ∧
        (∀ earlier ∈ front, IsRelative earlier) ∧ RefusesEntry entry fault ∧
          error = .invalidExclude entry fault := by
  simp only [List.findSome?_eq_some_iff, excludeFault_eq_none_iff, excludeFault_eq_some_iff]
  constructor
  · rintro ⟨front, entry, back, written, ⟨fault, refused, same⟩, passed⟩
    refine ⟨front, entry, back, fault, ?_, passed, refused, same⟩
    cases given : config.exclude with
    | none =>
      rw [given] at written
      exact absurd written.symm (List.append_ne_nil_of_right_ne_nil _ (List.cons_ne_nil _ _))
    | some entries =>
      rw [given] at written
      exact congrArg some written
  · rintro ⟨front, entry, back, fault, written, passed, refused, same⟩
    exact ⟨front, entry, back, by rw [written]; rfl, ⟨fault, refused, same⟩, passed⟩

/-! ## All passes -/

theorem fault?_eq (config : Config) : config.fault? =
    (config.extensions.entries.findSome? markerFault).or
      ((config.fileNames.entries.findSome? markerFault).or
        ((config.extensions.entries.findSome? dotFault).or
          ((config.exclude.getD []).findSome? excludeFault))) := by
  simp only [fault?, List.findSome?_append, Option.orElse_eq_orElse, Option.orElse_eq_or,
    Option.or_assoc]

theorem fault?_eq_none_iff : config.fault? = none ↔ config.Sound := by
  rw [fault?_eq, Option.or_eq_none_iff, Option.or_eq_none_iff, Option.or_eq_none_iff,
    findSome?_markerFault_eq_none_iff, findSome?_markerFault_eq_none_iff,
    findSome?_dotFault_eq_none_iff, findSome?_excludeFault_eq_none_iff]
  constructor
  · rintro ⟨extensions, fileNames, undotted, exclude⟩
    exact ⟨extensions, fileNames, undotted, exclude⟩
  · rintro ⟨extensions, fileNames, undotted, exclude⟩
    exact ⟨extensions, fileNames, undotted, exclude⟩

theorem fault?_eq_some_iff : config.fault? = some error ↔ config.FirstFault error := by
  rw [fault?_eq, Option.or_eq_some_iff, Option.or_eq_some_iff, Option.or_eq_some_iff,
    findSome?_markerFault_eq_some_iff, findSome?_markerFault_eq_none_iff,
    findSome?_markerFault_eq_some_iff, findSome?_markerFault_eq_none_iff,
    findSome?_dotFault_eq_some_iff, findSome?_dotFault_eq_none_iff,
    findSome?_excludeFault_eq_some_iff]
  constructor
  · rintro (⟨key, framing, fault, least, lacks, rfl⟩ | ⟨extensions, later⟩)
    · exact .extension least lacks
    · rcases later with ⟨key, framing, fault, least, lacks, rfl⟩ | ⟨fileNames, later⟩
      · exact .fileName extensions least lacks
      · rcases later with ⟨key, framing, least, rfl⟩ | ⟨undotted, later⟩
        · exact .dotted extensions fileNames least
        · obtain ⟨front, entry, back, fault, written, passed, refused, rfl⟩ := later
          exact .exclude extensions fileNames undotted written passed refused
  · intro first
    cases first with
    | extension least lacks => exact .inl ⟨_, _, _, least, lacks, rfl⟩
    | fileName extensions least lacks =>
      exact .inr ⟨extensions, .inl ⟨_, _, _, least, lacks, rfl⟩⟩
    | dotted extensions fileNames least =>
      exact .inr ⟨extensions, .inr ⟨fileNames, .inl ⟨_, _, least, rfl⟩⟩⟩
    | exclude extensions fileNames undotted written passed refused =>
      exact .inr ⟨extensions, .inr ⟨fileNames, .inr ⟨undotted,
        _, _, _, _, written, passed, refused, rfl⟩⟩⟩

theorem existsUnique_firstFault (unsound : ¬ config.Sound) : ∃! error, config.FirstFault error := by
  cases found : config.fault? with
  | none => exact absurd (fault?_eq_none_iff.1 found) unsound
  | some error =>
    refine ⟨error, fault?_eq_some_iff.1 found, fun other first => ?_⟩
    exact Option.some.inj ((fault?_eq_some_iff.2 first).symm.trans found)

/-! ## What is made of an accepted configuration -/

theorem Sound.markers {table : StyleTable} (sound : config.Sound) (made : config.styles = .ok table) :
    ∀ rule ∈ table.rules, rule.style.opening ≠ "" ∧ rule.style.closing ≠ "" := by
  obtain ⟨rules, mapped, rfl⟩ := styles_eq_ok made
  intro rule member
  rcases List.mem_append.1 member with configured | builtin
  · rcases List.mem_append.1 configured with named | extended
    · obtain ⟨entry, isEntry, made⟩ := exists_entry_of_mapM_eq_ok mapped named
      have marked := sound.fileNames entry isEntry
      rw [(fileNameRule_eq_ok made).2]
      exact ⟨marked.opening, marked.closing⟩
    · obtain ⟨entry, isEntry, rfl⟩ := List.mem_map.1 extended
      have marked := sound.extensions entry isEntry
      exact ⟨marked.opening, marked.closing⟩
  · have all : ∀ rule ∈ StyleTable.builtin.rules,
        rule.style.opening ≠ "" ∧ rule.style.closing ≠ "" := by decide
    exact all rule builtin

end Config

/-- A text that is empty or begins with a separator has an empty first part. -/
theorem Path.isPlain_of_parts {path : Path} (noDots : .current ∉ path.components)
    (parts : ∀ part ∈ splitSeparators path.text.toList, part ≠ [] ∧ part ≠ ['.']) : path.IsPlain := by
  have first : ∃ c rest, path.text.toList = c :: rest ∧ c ≠ '/' := by
    cases text : path.text.toList with
    | nil => exact absurd rfl (parts [] (by simp [text, splitSeparators])).1
    | cons c rest =>
      refine ⟨c, rest, rfl, ?_⟩
      rintro rfl
      exact (parts [] (by simp [text, splitSeparators])).1 rfl
  obtain ⟨c, rest, text, notSeparator⟩ := first
  refine ⟨?_, ?_, noDots, parts⟩
  · rintro empty
    rw [empty] at text
    cases text
  · refine Bool.eq_false_iff.2 fun absolute => notSeparator ?_
    simpa [text] using isAbsolute_iff.1 absolute

namespace Exclusions

/-- An entry that is read from the root of the tree still is in its plainest form. -/
theorem isPlain_of_normalize {entry : String} {subtree : Path}
    (relative : entry.toList.head? ≠ some '/') (normal : normalize entry = some subtree) :
    subtree.IsPlain := by
  obtain ⟨something, plainest⟩ := normalize_eq_some.1 normal
  obtain ⟨inner, way, read⟩ := (Path.mk entry).way_shape
  have noRoot : (Path.mk entry).rootOf = [] := if_neg (mt Path.isAbsolute_iff.1 relative)
  rw [noRoot, List.nil_append] at way
  rw [way] at something plainest
  have noDots : .current ∉ subtree.components := by
    rw [components_of_normalize normal, Path.way]
    simp
  refine Path.isPlain_of_parts noDots ?_
  rw [plainest, Path.splitSeparators_ofComponents something read]
  intro part member
  obtain ⟨component, inside, rfl⟩ := List.mem_map.1 member
  exact (read component inside).toList_ne

theorem isPlain_of_mem_ofEntries {entries : List String} {subtree : Path}
    (relative : ∀ entry ∈ entries, entry.toList.head? ≠ some '/')
    (member : subtree ∈ (ofEntries entries).subtrees) : subtree.IsPlain := by
  obtain ⟨entry, isEntry, normal⟩ := mem_subtrees.1 member
  exact isPlain_of_normalize (relative entry isEntry) normal

end Exclusions

namespace Config

variable {config : Config}

theorem Sound.isPlain {subtree : Path} (sound : config.Sound)
    (member : subtree ∈ config.exclusions.subtrees) : subtree.IsPlain := by
  unfold exclusions at member
  split at member
  · next entries given =>
    refine Exclusions.isPlain_of_mem_ofEntries (fun entry isEntry => ?_) member
    exact (sound.exclude entry (by rwa [given])).relative
  · exact Exclusions.isPlain_of_mem_ofEntries (by decide) member

/-- A file that says a configuration is accepted if and only if the configuration is sound. Else there
is one first fault, and that is reported. A processor that is made of an accepted configuration has
no rule without markers, and what it leaves out is named by plain relative paths. -/
theorem load_accepts_sound {files : FileSystem} {path : Path} {text : String}
    (reads : files.readText path = .ok text) (denotes : parse text = .ok config) :
    (∀ accepted, load files path = .ok accepted ↔ accepted = config ∧ config.Sound) ∧
    (¬ config.Sound → ∃! error, config.FirstFault error) ∧
    (∀ error, load files path = .error error ↔ config.FirstFault error) ∧
    ∀ accepted year processor, load files path = .ok accepted →
      Processor.ofConfig year (some accepted) = .ok processor →
        (∀ rule ∈ processor.styles.rules, rule.style.opening ≠ "" ∧ rule.style.closing ≠ "") ∧
          ∀ subtree ∈ processor.exclusions.subtrees, subtree.IsPlain := by
  have accepts (accepted : Config) :
      load files path = .ok accepted ↔ accepted = config ∧ config.Sound := by
    rw [load_eq_ok_iff]
    constructor
    · rintro ⟨text', reads', denotes', faultless⟩
      cases reads.symm.trans reads'
      cases denotes.symm.trans denotes'
      exact ⟨rfl, fault?_eq_none_iff.1 faultless⟩
    · rintro ⟨rfl, sound⟩
      exact ⟨text, reads, denotes, fault?_eq_none_iff.2 sound⟩
  refine ⟨accepts, existsUnique_firstFault, fun error => ?_, ?_⟩
  · rw [load, reads, ← fault?_eq_some_iff]
    simp only [denotes]
    cases config.fault? with
    | none => simp
    | some other => simp
  · intro accepted year processor loads built
    obtain ⟨rfl, sound⟩ := (accepts accepted).1 loads
    obtain ⟨styles, made, built⟩ := Processor.ofConfig_some_eq_ok.1 built
    obtain ⟨-, rfl⟩ := Processor.make_eq_ok.1 built
    exact ⟨sound.markers made, fun subtree => sound.isPlain⟩

/-- A dotted key, two file names without markers and an entry at the root. -/
def manyFaults : Config where
  noticeLines := none
  exclude := some ["a", "/b"]
  extensions := ⟨[(".rs", ⟨"//-", "//", "//"⟩)], by decide⟩
  fileNames := ⟨[("Justfile", ⟨"#-", "#", ""⟩), ("Makefile", ⟨"", "#", "#"⟩)], by decide⟩

/-- Entries that are not written in the plainest way, or lead nowhere. -/
def manyDots : Config where
  noticeLines := none
  exclude := some [".//a", ".", "b/./c/"]
  extensions := ⟨[("rs", ⟨"//-", "//", "//"⟩)], by decide⟩
  fileNames := .empty

def manyFaultsText : String :=
  "exclude = ['a', '/b']\n[comment-styles]\n'.rs' = ['//-', '//', '//']\n" ++
    "[filenames]\nMakefile = ['', '#', '#']\nJustfile = ['#-', '#', '']\n"

def manyDotsText : String :=
  "exclude = ['.//a', '.', 'b/./c/']\n[comment-styles]\nrs = ['//-', '//', '//']\n"

def twoConfigs : FileSystem where
  top := .leaf ⟨"dots.toml", by decide⟩ (.file manyDotsText.toUTF8)
    (.leaf ⟨"faults.toml", by decide⟩ (.file manyFaultsText.toUTF8) .nil)
  workingDirectory := []
  ordered := by decide
  startsInFolder := ⟨_, rfl⟩

set_option maxRecDepth 2000 in
/-- Of many faults the end of the first file name is reported. -/
theorem load_accepts_sound_with_dots :
    load twoConfigs ⟨"faults.toml"⟩ = .error (.invalidStyle "Justfile" .emptyClosing) ∧
      load twoConfigs ⟨"dots.toml"⟩ = .ok manyDots ∧
      ∃ processor, Processor.ofConfig "2026" (some manyDots) = .ok processor ∧
        processor.exclusions.subtrees = [⟨"a"⟩, ⟨"b/c"⟩] ∧
        (∀ rule ∈ processor.styles.rules, rule.style.opening ≠ "" ∧ rule.style.closing ≠ "") ∧
        ∀ subtree ∈ processor.exclusions.subtrees, subtree.IsPlain := by
  have readsFaults : twoConfigs.readText ⟨"faults.toml"⟩ = .ok manyFaultsText := by decide +kernel
  have readsDots : twoConfigs.readText ⟨"dots.toml"⟩ = .ok manyDotsText := by decide +kernel
  have faults : parse manyFaultsText = .ok manyFaults := by rfl
  have dots : parse manyDotsText = .ok manyDots := by rfl
  obtain ⟨-, -, reports, -⟩ := load_accepts_sound readsFaults faults
  obtain ⟨accepts, -, -, guarantees⟩ := load_accepts_sound readsDots dots
  have first : manyFaults.FirstFault (.invalidStyle "Justfile" .emptyClosing) := by
    refine .fileName (by decide) ⟨List.mem_cons_self, ⟨_, List.mem_cons_self, by decide⟩, ?_⟩
      (.closing (by decide) rfl)
    intro other isKey _ differs
    rcases List.mem_pair.1 isKey with rfl | rfl
    · exact absurd rfl differs
    · decide +kernel
  have sound : manyDots.Sound := ⟨by decide, by decide, by decide, by decide⟩
  have loads : load twoConfigs ⟨"dots.toml"⟩ = .ok manyDots := (accepts _).2 ⟨rfl, sound⟩
  obtain ⟨processor, built, subtrees⟩ : ∃ processor,
      Processor.ofConfig "2026" (some manyDots) = .ok processor ∧
        processor.exclusions.subtrees = [⟨"a"⟩, ⟨"b/c"⟩] := by
    exact ⟨_, rfl, by decide +kernel⟩
  exact ⟨(reports _).2 first, loads, processor, built, subtrees, guarantees _ _ _ loads built⟩

end Config

end CopyrightHeader

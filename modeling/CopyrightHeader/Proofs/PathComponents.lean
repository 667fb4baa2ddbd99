import CopyrightHeader.Proofs.PathSteps
import Mathlib.Logic.Relation

/-! The components of a path that say where it leads.

Apart from a root, they are read off the parts between separators one by one, and parts that are
empty or a single dot are read as none. So a path can be written in longer ways that lead the same
way, and the plainest of them is read as the components that it was made of.
-/

set_option autoImplicit false

namespace CopyrightHeader.Path

theorem separator_not_mem_of_mem_splitSeparators {text part : List Char}
    (member : part ∈ splitSeparators text) : '/' ∉ part := by
  induction text generalizing part with
  | nil => simp_all [splitSeparators]
  | cons c text ih =>
    rw [splitSeparators] at member
    split at member
    · rcases List.mem_cons.1 member with rfl | member
      · simp
      · exact ih member
    · next notSeparator =>
      cases parts : splitSeparators text with
      | nil => exact absurd parts (splitSeparators_ne_nil text)
      | cons first others =>
        rw [parts] at member ih
        rcases List.mem_cons.1 member with rfl | member
        · simp [Ne.symm notSeparator, ih List.mem_cons_self]
        · exact ih (List.mem_cons_of_mem _ member)

/-! ## Components apart from dots -/

/-- The components of a path, single dots left out. -/
def way (path : Path) : List Component := path.components.filter (· ≠ .current)

def rootOf (path : Path) : List Component := if path.isAbsolute then [.root] else []

theorem isAbsolute_iff {path : Path} :
    path.isAbsolute = true ↔ path.text.toList.head? = some '/' :=
  decide_eq_true_iff

theorem innerComponent_ne_current {part : List Char} : innerComponent part ≠ some .current := by
  unfold innerComponent
  split
  · simp
  · split <;> simp

theorem filter_filterMap_innerComponent (parts : List (List Char)) :
    (parts.filterMap innerComponent).filter (· ≠ .current) = parts.filterMap innerComponent := by
  refine List.filter_eq_self.2 fun component member => ?_
  obtain ⟨part, -, read⟩ := List.mem_filterMap.1 member
  exact decide_eq_true fun same => innerComponent_ne_current (same ▸ read)

/-- Behind the root every part is read on its own. -/
theorem way_eq (path : Path) :
    path.way = path.rootOf ++ (splitSeparators path.text.toList).filterMap innerComponent := by
  rw [way, components_eq, rootOf, isAbsolute]
  cases path.text.toList with
  | nil => rfl
  | cons c text =>
    by_cases separator : c = '/'
    · obtain ⟨first, others, parts⟩ := List.exists_cons_of_ne_nil (splitSeparators_ne_nil text)
      have inner := filter_filterMap_innerComponent (first :: others)
      rw [splitSeparators, if_pos separator, parts]
      simp only [separator, List.head?_cons, if_pos, decide_true]
      rw [componentsOf, List.filter_cons_of_pos (by decide), inner]
      rfl
    · obtain ⟨first, others, parts⟩ := List.exists_cons_of_ne_nil (splitSeparators_ne_nil text)
      have inner := filter_filterMap_innerComponent ((c :: first) :: others)
      rw [splitSeparators, if_neg separator, parts]
      have relative : (c :: text).head? ≠ some '/' := by simpa using separator
      simp only [if_neg relative, decide_eq_true_eq, List.nil_append]
      -- A dot in front is told as a component of its own, and left out again.
      by_cases dot : c :: first = ['.']
      · rw [dot] at inner ⊢
        simpa [componentsOf, innerComponent] using inner
      · have plain : componentsOf ((c :: first) :: others) =
            ((c :: first) :: others).filterMap innerComponent := by
          unfold componentsOf
          split
          · next same => cases (List.cons.inj same).1
          · next same => exact absurd (List.cons.inj same).1 dot
          · rfl
        rw [plain, inner]

/-! ## Other ways to write a path -/

/-- A text and one with more characters that lead nowhere else: another separator beside one, one at
the end, or a dot between separators, in front of a relative path or at the end. -/
inductive Respells : (text longer : List Char) → Prop where
  | separator (front back : List Char) : Respells (front ++ '/' :: back) (front ++ '/' :: '/' :: back)
  | final {text : List Char} (notEmpty : text ≠ []) : Respells text (text ++ ['/'])
  | dot (front back : List Char) : Respells (front ++ '/' :: back) (front ++ '/' :: '.' :: '/' :: back)
  | leadingDot {text : List Char} (relative : text.head? ≠ some '/') :
      Respells text ('.' :: '/' :: text)
  | finalDot {text : List Char} (notEmpty : text ≠ []) : Respells text (text ++ ['/', '.'])

/-- Two texts that such changes, made or taken back, lead from one to the other. -/
def SpelledAlike (first second : String) : Prop :=
  Relation.EqvGen Respells first.toList second.toList

theorem Respells.head? {text longer : List Char} (respells : Respells text longer) :
    longer.head? = some '/' ↔ text.head? = some '/' := by
  cases respells with
  | separator front back => cases front <;> simp
  | @final text notEmpty => cases text <;> simp_all
  | dot front back => cases front <;> simp
  | leadingDot relative => simp [relative]
  | @finalDot text notEmpty => cases text <;> simp_all

theorem Respells.filterMap {text longer : List Char} (respells : Respells text longer) :
    (splitSeparators longer).filterMap innerComponent =
      (splitSeparators text).filterMap innerComponent := by
  have empty : (splitSeparators []).filterMap innerComponent = [] := rfl
  have single : (splitSeparators ['.']).filterMap innerComponent = [] := rfl
  cases respells with
  | separator front back =>
    have split : front ++ '/' :: '/' :: back = front ++ '/' :: ([] ++ '/' :: back) := rfl
    rw [split, splitSeparators_append, splitSeparators_append, splitSeparators_append]
    simp [empty]
  | final notEmpty =>
    rw [splitSeparators_append]
    simp [empty]
  | dot front back =>
    have split : '.' :: '/' :: back = ['.'] ++ '/' :: back := rfl
    rw [split, splitSeparators_append, splitSeparators_append, splitSeparators_append]
    simp [single]
  | leadingDot relative =>
    have split : '.' :: '/' :: text = ['.'] ++ '/' :: text := rfl
    rw [split, splitSeparators_append]
    simp [single]
  | finalDot notEmpty =>
    rw [splitSeparators_append]
    simp [single]

theorem way_eq_of_spelledAlike {first second : String} (alike : SpelledAlike first second) :
    (Path.mk first).way = (Path.mk second).way := by
  have reads {text longer : List Char} (related : Relation.EqvGen Respells text longer) :
      (longer.head? = some '/' ↔ text.head? = some '/') ∧
        (splitSeparators longer).filterMap innerComponent =
          (splitSeparators text).filterMap innerComponent := by
    induction related with
    | rel text longer respells => exact ⟨respells.head?, respells.filterMap⟩
    | refl text => exact ⟨Iff.rfl, rfl⟩
    | symm text longer _ ih => exact ⟨ih.1.symm, ih.2.symm⟩
    | trans text other longer _ _ ih ih' => exact ⟨ih'.1.trans ih.1, ih'.2.trans ih.2⟩
  obtain ⟨sameStart, sameParts⟩ := reads alike
  rw [way_eq, way_eq, rootOf, rootOf, isAbsolute, isAbsolute, sameParts]
  simp only [sameStart]

/-! ## The plainest way to write components -/

/-- A component that is read off a part of its own text. -/
def Component.IsInner (component : Component) : Prop :=
  '/' ∉ component.text.toList ∧ innerComponent component.text.toList = some component

theorem isInner_of_innerComponent {part : List Char} {component : Component} (free : '/' ∉ part)
    (read : innerComponent part = some component) : component.IsInner := by
  have said : component.text.toList = part := by
    unfold innerComponent at read
    split at read
    · cases read
    · split at read
      · next parent =>
        cases read
        exact parent.symm
      · cases read
        exact String.toList_ofList
  rw [Component.IsInner, said]
  exact ⟨free, read⟩

theorem Component.IsInner.toList_ne {component : Component} (inner : component.IsInner) :
    component.text.toList ≠ [] ∧ component.text.toList ≠ ['.'] := by
  obtain ⟨-, read⟩ := inner
  constructor
  · intro empty
    rw [empty] at read
    cases read
  · intro dot
    rw [dot] at read
    cases read

/-- A root, if there is one, stands in front of components that are read off parts. -/
theorem way_shape (path : Path) :
    ∃ inner, path.way = path.rootOf ++ inner ∧ ∀ component ∈ inner, component.IsInner := by
  refine ⟨_, path.way_eq, fun component member => ?_⟩
  obtain ⟨part, inside, read⟩ := List.mem_filterMap.1 member
  exact isInner_of_innerComponent (separator_not_mem_of_mem_splitSeparators inside) read

theorem text_ne_empty_of_components {path : Path} (some : path.components ≠ []) : path.text ≠ "" := by
  rintro empty
  apply some
  rw [components_eq, empty]
  rfl

theorem components_of_isInner {component : Component} (inner : component.IsInner) :
    (Path.mk component.text).components = [component] := by
  obtain ⟨free, read⟩ := inner
  rw [components_eq, splitSeparators_of_not_mem free]
  unfold componentsOf
  split
  · next same => simp at same
  · next same =>
    rw [(List.cons.inj same).1] at read
    cases read
  · simp [read]

theorem components_foldl_join {path : Path} {inner : List Component} (some : path.components ≠ [])
    (read : ∀ component ∈ inner, component.IsInner) :
    (inner.foldl (fun path component => path.join component.text) path).components =
      path.components ++ inner := by
  induction inner generalizing path with
  | nil => simp
  | cons component inner ih =>
    obtain ⟨⟨free, first⟩, read⟩ := List.forall_mem_cons.1 read
    have joined := components_join_of_read (text_ne_empty_of_components some) free first
    rw [List.foldl_cons, ih (by simp [joined]) read, joined]
    simp

/-- What is written in the plainest way is read again as it was. -/
theorem components_ofComponents_way (path : Path) : (ofComponents path.way).components = path.way := by
  obtain ⟨inner, split, read⟩ := path.way_shape
  rw [split, ofComponents, rootOf]
  by_cases absolute : path.isAbsolute
  · have root : ((⟨""⟩ : Path).join Component.root.text).components = [.root] := rfl
    rw [if_pos absolute, List.singleton_append, List.foldl_cons,
      components_foldl_join (by simp [root]) read, root]
    rfl
  · rw [if_neg absolute, List.nil_append]
    cases inner with
    | nil => rfl
    | cons component inner =>
      obtain ⟨first, read⟩ := List.forall_mem_cons.1 read
      have start : (⟨""⟩ : Path).join component.text = ⟨component.text⟩ := by
        simp [join, head?_ne_of_not_mem first.1]
      have alone := components_of_isInner first
      rw [List.foldl_cons, start, components_foldl_join (by simp [alone]) read, alone]
      rfl

theorem splitSeparators_foldl_join {path : Path} {inner : List Component}
    (whole : [] ∉ splitSeparators path.text.toList) (read : ∀ component ∈ inner, component.IsInner) :
    splitSeparators (inner.foldl (fun path component => path.join component.text) path).text.toList =
      splitSeparators path.text.toList ++ inner.map (·.text.toList) := by
  induction inner generalizing path with
  | nil => simp
  | cons component inner ih =>
    obtain ⟨first, read⟩ := List.forall_mem_cons.1 read
    have notEmpty : path.text ≠ "" := by
      rintro empty
      simp [empty, splitSeparators] at whole
    have joined : splitSeparators (path.join component.text).text.toList =
        splitSeparators path.text.toList ++ [component.text.toList] := by
      rcases text_join_cases notEmpty (head?_ne_of_not_mem first.1) with ⟨front, final, -⟩ | joined
      · -- A final separator would have an empty part behind it.
        rw [final, splitSeparators_append] at whole
        simp [splitSeparators] at whole
      · rw [joined, splitSeparators_append, splitSeparators_of_not_mem first.1]
    rw [List.foldl_cons, ih (by simp [joined, whole, first.toList_ne.1.symm]) read, joined]
    simp

/-- Between the separators of the plainest way stand the components, and nothing else. -/
theorem splitSeparators_ofComponents {inner : List Component} (something : inner ≠ [])
    (read : ∀ component ∈ inner, component.IsInner) :
    splitSeparators (ofComponents inner).text.toList = inner.map (·.text.toList) := by
  obtain ⟨component, inner, rfl⟩ := List.exists_cons_of_ne_nil something
  obtain ⟨first, read⟩ := List.forall_mem_cons.1 read
  have start : (⟨""⟩ : Path).join component.text = ⟨component.text⟩ := by
    simp [join, head?_ne_of_not_mem first.1]
  have alone := splitSeparators_of_not_mem first.1
  rw [ofComponents, List.foldl_cons, start, splitSeparators_foldl_join ?_ read, alone]
  · rfl
  · simp [alone, first.toList_ne.1.symm]

theorem way_ofComponents_way (path : Path) : (ofComponents path.way).way = path.way := by
  rw [way, components_ofComponents_way, way, List.filter_filter]
  simp

end CopyrightHeader.Path

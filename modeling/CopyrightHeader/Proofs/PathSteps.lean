import CopyrightHeader.FileSystem.Resolve

/-! The steps and the components of a path that names are joined to.

The steps of a path are those of its parts, with at most a final separator behind them. Joining a
name drops that separator and adds one step down and one component, however the path was spelled.
-/

set_option autoImplicit false

namespace CopyrightHeader

namespace Path

theorem splitSeparators_ne_nil (text : List Char) : splitSeparators text ≠ [] := by
  cases text with
  | nil => simp [splitSeparators]
  | cons c rest =>
    rw [splitSeparators]
    split
    · simp
    · split <;> simp

theorem splitSeparators_append (front back : List Char) :
    splitSeparators (front ++ '/' :: back) = splitSeparators front ++ splitSeparators back := by
  induction front with
  | nil => simp [splitSeparators]
  | cons c front ih =>
    by_cases separator : c = '/'
    · simp only [List.cons_append, splitSeparators, if_pos separator, ih]
    · cases parts : splitSeparators front with
      | nil => exact absurd parts (splitSeparators_ne_nil front)
      | cons part others =>
        rw [parts] at ih
        simp only [List.cons_append, splitSeparators, if_neg separator, ih, parts]

theorem splitSeparators_of_not_mem {text : List Char} (free : '/' ∉ text) :
    splitSeparators text = [text] := by
  induction text with
  | nil => rfl
  | cons c text ih =>
    have notSeparator : c ≠ '/' := fun same => free (by simp [same])
    rw [splitSeparators, if_neg notSeparator, ih fun member => free (List.mem_cons_of_mem _ member)]

end Path

theorem FileName.toList_ne (name : FileName) :
    name.text.toList ≠ [] ∧ name.text.toList ≠ ['.'] ∧ name.text.toList ≠ ['.', '.'] := by
  obtain ⟨notEmpty, notCurrent, notParent, -⟩ := name.isFileName
  refine ⟨?_, ?_, ?_⟩
  · exact fun same => notEmpty (String.toList_injective same)
  · exact fun same => notCurrent (String.toList_injective same)
  · exact fun same => notParent (String.toList_injective same)

/-- The steps of the parts that are not empty. -/
def Step.ofNames (parts : List (List Char)) : List Step :=
  (parts.filter (· ≠ [])).map Step.ofPart

theorem Step.ofParts_eq (parts : List (List Char)) :
    ∃ final, (final = [] ∨ final = [.slash]) ∧ ofParts parts = ofNames parts ++ final := by
  induction parts with
  | nil => exact ⟨[], .inl rfl, rfl⟩
  | cons part parts ih =>
    obtain ⟨final, shape, steps⟩ := ih
    cases part with
    | nil =>
      cases parts with
      | nil => exact ⟨[.slash], .inr rfl, rfl⟩
      | cons next parts => exact ⟨final, shape, steps⟩
    | cons c part => exact ⟨final, shape, by simp [ofParts, ofNames, steps]⟩

theorem Step.ofParts_concat (parts : List (List Char)) {part : List Char} (notEmpty : part ≠ []) :
    ofParts (parts ++ [part]) = ofNames parts ++ [ofPart part] := by
  induction parts with
  | nil =>
    cases part with
    | nil => exact absurd rfl notEmpty
    | cons c part => rfl
  | cons first parts ih =>
    cases first with
    | nil =>
      cases parts with
      | nil => simpa [ofParts, ofNames] using ih
      | cons next parts => simpa [ofParts, ofNames] using ih
    | cons c first => simpa [ofParts, ofNames] using ih

@[simp] theorem Step.ofNames_append (front back : List (List Char)) :
    ofNames (front ++ back) = ofNames front ++ ofNames back := by
  simp [ofNames]

theorem Step.ofPart_fileName (name : FileName) : ofPart name.text.toList = .down name := by
  obtain ⟨notEmpty, notCurrent, notParent⟩ := name.toList_ne
  have named : IsFileName (String.ofList name.text.toList) := by
    rw [String.ofList_toList]
    exact name.isFileName
  rw [ofPart, if_neg (by simp [notEmpty, notCurrent]), if_neg notParent, dif_pos named]
  exact congrArg Step.down (FileName.ext_text String.ofList_toList)

namespace Path

theorem splitSeparators_ne_singleton_nil {text : List Char} (notNil : text ≠ []) :
    splitSeparators text ≠ [[]] := by
  obtain ⟨c, rest, rfl⟩ := List.exists_cons_of_ne_nil notNil
  rw [splitSeparators]
  split
  · simp [splitSeparators_ne_nil rest]
  · split
    · simp
    · simp

/-- The components that the parts of a path are read as. -/
def componentsOf : List (List Char) → List Component
  | [] :: part :: parts => .root :: (part :: parts).filterMap innerComponent
  | ['.'] :: parts => .current :: parts.filterMap innerComponent
  | parts => parts.filterMap innerComponent

theorem components_eq (path : Path) :
    path.components = componentsOf (splitSeparators path.text.toList) := rfl

/-- Behind the first part, which may tell a root, parts are read one by one. -/
theorem componentsOf_concat {parts : List (List Char)} (notNil : parts ≠ []) (notRoot : parts ≠ [[]])
    (part : List Char) :
    componentsOf (parts ++ [part]) = componentsOf parts ++ (innerComponent part).toList := by
  have last (others : List (List Char)) : (others ++ [part]).filterMap innerComponent =
      others.filterMap innerComponent ++ (innerComponent part).toList := by
    rw [List.filterMap_append]
    cases read : innerComponent part with
    | none => simp [read]
    | some component => simp [read]
  obtain ⟨first, others, rfl⟩ := List.exists_cons_of_ne_nil notNil
  by_cases root : first = []
  · subst root
    obtain ⟨second, others, rfl⟩ :=
      List.exists_cons_of_ne_nil fun none : others = [] => notRoot (by rw [none])
    exact congrArg (Component.root :: ·) (last (second :: others))
  · by_cases current : first = ['.']
    · subst current
      exact congrArg (Component.current :: ·) (last others)
    · have plain (parts : List (List Char)) :
          componentsOf (first :: parts) = (first :: parts).filterMap innerComponent := by
        unfold componentsOf
        split
        · next same => exact absurd (List.cons.inj same).1 root
        · next same => exact absurd (List.cons.inj same).1 current
        · rfl
      rw [List.cons_append, plain, plain]
      exact last (first :: others)

@[simp] theorem innerComponent_nil : innerComponent [] = none := rfl

theorem innerComponent_fileName (name : FileName) :
    innerComponent name.text.toList = some (.name name.text) := by
  obtain ⟨notNil, notCurrent, notParent⟩ := name.toList_ne
  rw [innerComponent, if_neg (by simp [notNil, notCurrent]), if_neg notParent, String.ofList_toList]

/-- The steps of a path apart from a final separator. -/
def names (path : Path) : List Step := Step.ofNames (splitSeparators path.text.toList)

theorem steps_eq (path : Path) :
    ∃ final, (final = [] ∨ final = [.slash]) ∧ path.steps = path.names ++ final :=
  Step.ofParts_eq _

/-- A separator at the end of a path is the one in front of what is joined; else one is added. -/
theorem text_join_cases {path : Path} (notEmpty : path.text ≠ "") {text : String}
    (relative : text.toList.head? ≠ some '/') :
    (∃ front, path.text.toList = front ++ ['/'] ∧
      (path.join text).text.toList = front ++ '/' :: text.toList) ∨
    (path.join text).text.toList = path.text.toList ++ '/' :: text.toList := by
  rw [join, if_neg relative]
  by_cases final : path.text.toList.getLast? = some '/'
  · obtain ⟨front, same⟩ := List.getLast?_eq_some_iff.1 final
    refine .inl ⟨front, same, ?_⟩
    rw [if_pos (.inr final), String.toList_append, same, List.append_assoc]
    rfl
  · refine .inr ?_
    rw [if_neg (by simp [notEmpty, final]), String.toList_append, String.toList_append,
      List.append_assoc]
    rfl

theorem head?_ne_of_not_mem {text : String} (free : '/' ∉ text.toList) :
    text.toList.head? ≠ some '/' :=
  fun first => free (List.mem_of_head? first)

/-- Joining what is read as one component adds it. -/
theorem components_join_of_read {path : Path} (notEmpty : path.text ≠ "") {text : String}
    (free : '/' ∉ text.toList) {component : Component}
    (read : innerComponent text.toList = some component) :
    (path.join text).components = path.components ++ [component] := by
  rw [components_eq, components_eq]
  rcases text_join_cases notEmpty (head?_ne_of_not_mem free) with ⟨front, same, joined⟩ | joined
  · rw [joined, same, splitSeparators_append, splitSeparators_append,
      splitSeparators_of_not_mem free]
    by_cases atRoot : splitSeparators front = [[]]
    · simp [atRoot, splitSeparators, componentsOf, read]
    · rw [componentsOf_concat (splitSeparators_ne_nil front) atRoot, splitSeparators,
        componentsOf_concat (splitSeparators_ne_nil front) atRoot, read]
      simp
  · have notNil : path.text.toList ≠ [] := fun same => notEmpty (String.toList_injective same)
    rw [joined, splitSeparators_append, splitSeparators_of_not_mem free,
      componentsOf_concat (splitSeparators_ne_nil _) (splitSeparators_ne_singleton_nil notNil), read]
    rfl

section

variable {path : Path} (notEmpty : path.text ≠ "") (name : FileName)

include notEmpty

/-- However the path ends, joining a name puts one separator in front of the name. -/
theorem exists_front_of_join : ∃ front, (path.join name.text).text.toList =
      front ++ '/' :: name.text.toList ∧
    Step.ofNames (splitSeparators front) = path.names ∧
    (front ++ ['/']).head? = path.text.toList.head? ∧
    ∀ c ∈ front, c ∈ path.text.toList := by
  have relative := head?_ne_of_not_mem name.isFileName.2.2.2.1
  rcases text_join_cases notEmpty relative with ⟨front, same, joined⟩ | joined
  · refine ⟨front, joined, ?_, by rw [same], fun c member => ?_⟩
    · rw [names, same, splitSeparators_append, Step.ofNames_append]
      simp [Step.ofNames, splitSeparators]
    · rw [same]
      exact List.mem_append_left _ member
  · have notNil : path.text.toList ≠ [] := fun same => notEmpty (String.toList_injective same)
    obtain ⟨c, rest, chars⟩ := List.exists_cons_of_ne_nil notNil
    exact ⟨path.text.toList, joined, rfl, by rw [chars]; rfl, fun _ member => member⟩

theorem splitSeparators_join : ∃ front, splitSeparators (path.join name.text).text.toList =
      front ++ [name.text.toList] ∧ Step.ofNames front = path.names := by
  obtain ⟨front, text, steps, -⟩ := exists_front_of_join notEmpty name
  refine ⟨splitSeparators front, ?_, steps⟩
  rw [text, splitSeparators_append, splitSeparators_of_not_mem name.isFileName.2.2.2.1]

theorem steps_join : (path.join name.text).steps = path.names ++ [.down name] := by
  obtain ⟨front, parts, steps⟩ := splitSeparators_join notEmpty name
  rw [Path.steps, parts, Step.ofParts_concat _ name.toList_ne.1, steps, Step.ofPart_fileName]

theorem names_join : (path.join name.text).names = path.names ++ [.down name] := by
  obtain ⟨front, parts, steps⟩ := splitSeparators_join notEmpty name
  rw [names, parts, Step.ofNames_append, steps]
  simp [Step.ofNames, name.toList_ne.1, Step.ofPart_fileName]

theorem text_join_ne_empty : (path.join name.text).text ≠ "" := by
  obtain ⟨front, text, -⟩ := exists_front_of_join notEmpty name
  intro empty
  simp [empty] at text

theorem isAbsolute_join : (path.join name.text).isAbsolute = path.isAbsolute := by
  obtain ⟨front, text, -, first, -⟩ := exists_front_of_join notEmpty name
  have start : (front ++ '/' :: name.text.toList).head? = (front ++ ['/']).head? := by
    cases front <;> rfl
  rw [isAbsolute, isAbsolute, text, start, first]

theorem nul_not_mem_join (free : '\x00' ∉ path.text.toList) :
    '\x00' ∉ (path.join name.text).text.toList := by
  obtain ⟨front, text, -, -, members⟩ := exists_front_of_join notEmpty name
  rw [text]
  intro member
  rcases List.mem_append.1 member with member | member
  · exact free (members _ member)
  · rcases List.mem_cons.1 member with same | member
    · exact absurd same (by decide)
    · exact name.isFileName.2.2.2.2.1 member

/-- Joining a name adds one component. -/
theorem components_join :
    (path.join name.text).components = path.components ++ [.name name.text] :=
  components_join_of_read notEmpty name.isFileName.2.2.2.1 (innerComponent_fileName name)

theorem fileName_join : (path.join name.text).fileName = some name.text := by
  rw [fileName, components_join notEmpty name, List.getLast?_concat]

end

/-- The path of an entry below a folder, by the names on the way to it. -/
def below (path : Path) (location : List FileName) : Path :=
  location.foldl (fun path name => path.join name.text) path

@[simp] theorem below_cons (path : Path) (name : FileName) (location : List FileName) :
    path.below (name :: location) = (path.join name.text).below location := rfl

/-- A path below another takes the same steps and then those down. -/
theorem steps_below {path : Path} (notEmpty : path.text ≠ "") (name : FileName)
    (location : List FileName) :
    (path.below (name :: location)).steps = path.names ++ (name :: location).map .down := by
  induction location generalizing path name with
  | nil => exact steps_join notEmpty name
  | cons next location ih =>
    rw [below_cons, ih (text_join_ne_empty notEmpty name), names_join notEmpty]
    simp

/-- A path below another has its components and then the names down. -/
theorem components_below {path : Path} (notEmpty : path.text ≠ "") (location : List FileName) :
    (path.below location).components =
      path.components ++ location.map fun name => .name name.text := by
  induction location generalizing path with
  | nil => simp [below]
  | cons name location ih =>
    rw [below_cons, ih (text_join_ne_empty notEmpty name), components_join notEmpty name]
    simp

theorem relativeTo_below {path : Path} (notEmpty : path.text ≠ "") (location : List FileName) :
    (path.below location).relativeTo path = some (location.map fun name => .name name.text) :=
  stripBase_eq_some.2 (components_below notEmpty location)

/-- Different ways down from a path are written differently. -/
theorem eq_of_below_eq {path : Path} (notEmpty : path.text ≠ "") {first second : List FileName}
    (down : first ≠ []) (downToo : second ≠ []) (same : path.below first = path.below second) :
    first = second := by
  obtain ⟨name, location, rfl⟩ := List.exists_cons_of_ne_nil down
  obtain ⟨other, elsewhere, rfl⟩ := List.exists_cons_of_ne_nil downToo
  have steps := congrArg Path.steps same
  rw [steps_below notEmpty, steps_below notEmpty] at steps
  exact (List.map_inj_right fun _ _ => Step.down.inj).1 (List.append_cancel_left steps)

theorem text_below_ne_empty {path : Path} (notEmpty : path.text ≠ "") (location : List FileName) :
    (path.below location).text ≠ "" := by
  induction location generalizing path with
  | nil => exact notEmpty
  | cons name location ih => exact ih (text_join_ne_empty notEmpty name)

theorem isAbsolute_below {path : Path} (notEmpty : path.text ≠ "") (location : List FileName) :
    (path.below location).isAbsolute = path.isAbsolute := by
  induction location generalizing path with
  | nil => rfl
  | cons name location ih =>
    rw [below_cons, ih (text_join_ne_empty notEmpty name), isAbsolute_join notEmpty]

theorem nul_not_mem_below {path : Path} (notEmpty : path.text ≠ "")
    (free : '\x00' ∉ path.text.toList) (location : List FileName) :
    '\x00' ∉ (path.below location).text.toList := by
  induction location generalizing path with
  | nil => exact free
  | cons name location ih =>
    exact ih (text_join_ne_empty notEmpty name) (nul_not_mem_join notEmpty name free)

end Path

end CopyrightHeader

import CopyrightHeader.Proofs.Sources

/-! The name that a path ends in.

If a path leads to a file by its name, and not by a link at its end, the file name of the path is the
last name of the location: a path starts in a folder, and what stands behind a file on it is no file.
-/

set_option autoImplicit false

namespace CopyrightHeader

namespace Path

theorem componentsOf_singleton (name : FileName) :
    componentsOf [name.text.toList] = [.name name.text] := by
  obtain ⟨notNil, notCurrent, -⟩ := name.toList_ne
  have plain : componentsOf [name.text.toList] = [name.text.toList].filterMap innerComponent := by
    unfold componentsOf
    split
    · next same => exact absurd (List.cons.inj same).1 notNil
    · next same => exact absurd (List.cons.inj same).1 notCurrent
    · rfl
  rw [plain]
  simp [innerComponent_fileName]

theorem getLast?_componentsOf (front : List (List Char)) (name : FileName) :
    (componentsOf (front ++ [name.text.toList])).getLast? = some (.name name.text) := by
  by_cases none : front = []
  · rw [none, List.nil_append, componentsOf_singleton]
    rfl
  · by_cases root : front = [[]]
    · simp [root, componentsOf, innerComponent_fileName]
    · rw [componentsOf_concat none root, innerComponent_fileName]
      simp

end Path

namespace Step

theorem ofParts_concat_nil (parts : List (List Char)) :
    ofParts (parts ++ [[]]) = ofNames parts ++ [.slash] := by
  induction parts with
  | nil => rfl
  | cons first parts ih =>
    cases first with
    | nil =>
      cases parts with
      | nil => rfl
      | cons next parts => simpa [ofParts, ofNames] using ih
    | cons c first => simpa [ofParts, ofNames] using ih

theorem toList_of_ofPart {part : List Char} {name : FileName} (down : ofPart part = .down name) :
    part = name.text.toList := by
  unfold ofPart at down
  split at down
  · cases down
  · split at down
    · cases down
    · split at down
      · cases down
        exact String.toList_ofList.symm
      · cases down

end Step

namespace Path

variable {path : Path}

theorem fileName_of_steps {front : List Step} {name : FileName}
    (steps : path.steps = front ++ [.down name]) : path.fileName = some name.text := by
  rw [Path.steps] at steps
  rw [fileName, components_eq]
  rcases List.eq_nil_or_concat (splitSeparators path.text.toList) with none | ⟨parts, part, same⟩
  · exact absurd none (splitSeparators_ne_nil _)
  · rw [List.concat_eq_append] at same
    rw [same] at steps ⊢
    by_cases empty : part = []
    · rw [empty, Step.ofParts_concat_nil] at steps
      cases (List.append_singleton_inj.1 steps).2
    · rw [Step.ofParts_concat parts empty] at steps
      rw [Step.toList_of_ofPart (List.append_singleton_inj.1 steps).2, getLast?_componentsOf]

end Path

namespace Directory

variable {top : Directory} {location : List FileName}
  {onLink : List FileName → Path → List Step → Except OsError Place}

/-- A file that steps lead to has the name of the last step. -/
def NamesFile (follow : List Step → Except OsError Place) (steps : List Step) : Prop :=
  ∀ reached content, follow steps = .ok (.node reached (.leaf (.file content))) →
    ∃ front name way, steps = front ++ [.down name] ∧ reached = way ++ [name]

theorem NamesFile.cons {follow follow' : List Step → Except OsError Place} {steps : List Step}
    (names : NamesFile follow steps) {step : Step}
    (same : follow' (step :: steps) = follow steps) : NamesFile follow' (step :: steps) := by
  intro reached content found
  obtain ⟨front, name, way, split, ends⟩ := names reached content (same ▸ found)
  exact ⟨step :: front, name, way, by rw [split, List.cons_append], ends⟩

theorem namesFile_descend
    (links : ∀ location target, top.HoldsFolder location →
      ∀ steps, steps ≠ [] → NamesFile (onLink location target) steps)
    (folder : top.HoldsFolder location) (steps : List Step) :
    NamesFile (top.descend .inspect onLink location) steps := by
  induction steps generalizing location with
  | nil =>
    intro reached content found
    obtain ⟨inner, here⟩ := folder
    simp [descend, here] at found
  | cons step steps ih =>
    cases step with
    | stay => exact (ih folder).cons (by rw [descend])
    | slash => exact (ih folder).cons (by rw [descend])
    | up => exact (ih folder.dropLast).cons (by rw [descend])
    | overlong =>
      intro reached content found
      simp only [descend] at found
      split at found <;> cases found
    | down next =>
      intro reached content found
      rcases descend_down_cases found with ⟨inner, here, goesOn⟩ | ⟨target, -, looks | follows⟩ |
        ⟨_, -, rfl, same⟩ | ⟨_, _, same⟩
      · obtain ⟨front, name, way, split, ends⟩ := ih ⟨inner, here⟩ reached content goesOn
        exact ⟨.down next :: front, name, way, by rw [split, List.cons_append], ends⟩
      · cases looks.2.2
      · -- Only a link that something stands behind is followed.
        have notNil : steps ≠ [] := fun none => follows.1 ⟨none, rfl⟩
        obtain ⟨front, name, way, split, ends⟩ :=
          links location ⟨target⟩ folder steps notNil reached content follows.2
        exact ⟨.down next :: front, name, way, by rw [split, List.cons_append], ends⟩
      · cases same
        exact ⟨[], next, location, rfl, rfl⟩
      · cases same

theorem namesFile_followLink (limit : Nat) (location : List FileName) (target : Path)
    (folder : top.HoldsFolder location) (steps : List Step) (notNil : steps ≠ []) :
    NamesFile (top.followLink .inspect limit location target) steps := by
  induction limit generalizing location target steps with
  | zero =>
    intro reached content found
    cases found
  | succ limit ih =>
    intro reached content found
    obtain ⟨less, same, -, goesOn⟩ := followLink_eq_ok.1 found
    cases same
    obtain ⟨front, name, way, split, ends⟩ :=
      namesFile_descend ih (folder.start target) _ reached content goesOn
    -- The last step of all is the last one behind the link.
    obtain ⟨back, last, rfl⟩ : ∃ back last, steps = back ++ [last] :=
      ⟨_, _, (List.dropLast_concat_getLast notNil).symm⟩
    rw [← List.append_assoc] at split
    obtain ⟨-, rfl⟩ := List.append_singleton_inj.1 split
    exact ⟨back, name, way, rfl, ends⟩

end Directory

theorem Path.fileName_below {path : Path} (notEmpty : path.text ≠ "") (front : List FileName)
    (name : FileName) : (path.below (front ++ [name])).fileName = some name.text := by
  rw [fileName, components_below notEmpty, List.map_append, List.map_singleton,
    ← List.append_assoc, List.getLast?_concat]

namespace FileSystem

variable {files : FileSystem} {exclusions : Exclusions} {path : Path} {source : Source}

/-- The file name of a path to a file is the last name of the location. -/
theorem fileName_of_file {location : List FileName} {content : ByteArray}
    (looks : files.resolve .inspect path = .ok (.node location (.leaf (.file content)))) :
    ∃ front name, location = front ++ [name] ∧ path.fileName = some name.text := by
  obtain ⟨-, -, -, leads⟩ := resolve_eq_ok.1 looks
  obtain ⟨front, name, way, steps, ends⟩ := Directory.namesFile_descend
    (Directory.namesFile_followLink Directory.linkLimit) (files.startsInFolder.start path) path.steps
    location content leads
  exact ⟨way, name, ends, Path.fileName_of_steps steps⟩

/-- So it is for all that a walk comes upon. -/
theorem fileName_of_mem_sources (member : source ∈ files.sources exclusions path) :
    ∃ front name, source.location = front ++ [name] ∧ source.path.fileName = some name.text := by
  unfold sources at member
  split at member
  · next looks =>
    rw [List.mem_singleton.1 member]
    exact fileName_of_file looks
  · next location inner leads _ =>
    obtain ⟨below, inside, rfl⟩ := List.mem_map.1 member
    obtain ⟨front, name, rfl⟩ : ∃ front name, below = front ++ [name] :=
      ⟨_, _, (List.dropLast_concat_getLast (Directory.ne_nil_of_mem_included inside)).symm⟩
    exact ⟨location ++ front, name, (List.append_assoc ..).symm,
      Path.fileName_below (resolve_eq_ok.1 leads).1 front name⟩
  · cases member

end FileSystem

end CopyrightHeader

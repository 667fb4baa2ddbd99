import CopyrightHeader.Proofs.Sources

/-! What is looked at when a path is followed.

A path is followed from one location to the next. All that counts at each is what kind of entry is
there, if any, and where it leads if it is a link. Trees that look the same at all locations on the
way lead a path to the same place.
-/

set_option autoImplicit false

namespace CopyrightHeader

/-- What of an entry counts for the paths that pass it. -/
inductive Outline where
  | file
  | link (target : String)
  | folder

def Node.outline : Node → Outline
  | .leaf (.file _) => .file
  | .leaf (.link target) => .link target
  | .folder _ => .folder

def Place.outline : Place → List FileName × Option Outline
  | .node location entry => (location, some entry.outline)
  | .vacant location => (location, none)

namespace Directory

/-- The locations that are looked at along steps. `onLink` tells those behind a link. -/
def trail (top : Directory) (onLink : List FileName → Path → List Step → List (List FileName))
    (location : List FileName) : List Step → List (List FileName)
  | [] => [location]
  | .stay :: rest => trail top onLink location rest
  | .slash :: rest => trail top onLink location rest
  | .up :: rest => trail top onLink location.dropLast rest
  | .overlong :: _ => []
  | .down name :: rest =>
    (location ++ [name]) ::
      match top.nodeAt (location ++ [name]) with
      | some (.folder _) => trail top onLink (location ++ [name]) rest
      | some (.leaf (.link target)) => onLink location ⟨target⟩ rest
      | _ => []

def linkTrail (top : Directory) :
    (limit : Nat) → (location : List FileName) → (target : Path) → List Step → List (List FileName)
  | 0, _, _, _ => []
  | limit + 1, location, target, rest =>
    if target.text = "" then []
    else
      trail top (linkTrail top limit) (if target.isAbsolute then [] else location)
        (target.steps ++ rest)

/-- The same kind of entry, or none, stands at the location in both trees. -/
def LooksSame (top other : Directory) (location : List FileName) : Prop :=
  (top.nodeAt location).map Node.outline = (other.nodeAt location).map Node.outline

variable {top other : Directory} {purpose : Purpose}
  {onLink onLink' : List FileName → Path → List Step → Except OsError Place}
  {onTrail : List FileName → Path → List Step → List (List FileName)}

theorem LooksSame.cases {location : List FileName} (same : LooksSame top other location) :
    (top.nodeAt location = none ∧ other.nodeAt location = none) ∨
    (∃ content content', top.nodeAt location = some (.leaf (.file content)) ∧
      other.nodeAt location = some (.leaf (.file content'))) ∨
    (∃ target, top.nodeAt location = some (.leaf (.link target)) ∧
      other.nodeAt location = some (.leaf (.link target))) ∨
    ∃ inner inner', top.nodeAt location = some (.folder inner) ∧
      other.nodeAt location = some (.folder inner') := by
  unfold LooksSame at same
  generalize top.nodeAt location = here at same ⊢
  generalize other.nodeAt location = there at same ⊢
  rcases here with _ | ((content | target) | inner) <;>
    rcases there with _ | ((content' | target') | inner') <;>
      simp_all [Node.outline]

theorem descend_outline
    (links : ∀ location target steps,
      (∀ place ∈ onTrail location target steps, LooksSame top other place) →
      (onLink' location target steps).map Place.outline = (onLink location target steps).map Place.outline)
    {location : List FileName} {steps : List Step}
    (same : ∀ place ∈ top.trail onTrail location steps, LooksSame top other place) :
    (other.descend purpose onLink' location steps).map Place.outline =
      (top.descend purpose onLink location steps).map Place.outline := by
  induction steps generalizing location with
  | nil =>
    rcases (same location List.mem_cons_self).cases with ⟨here, there⟩ | ⟨_, _, here, there⟩ |
      ⟨_, here, there⟩ | ⟨_, _, here, there⟩
    all_goals simp only [descend, here, there, Except.map, Place.outline, Node.outline]
  | cons step steps ih =>
    cases step with
    | stay => simpa only [descend] using ih same
    | slash => simpa only [descend] using ih same
    | up => simpa only [descend] using ih same
    | overlong => simp only [descend]
    | down name =>
      obtain ⟨sameHere, behind⟩ := List.forall_mem_cons.1 same
      simp only [descend]
      split
      · rfl
      -- Where a folder or a link is passed, the rest of the trail is looked at behind it.
      · rcases sameHere.cases with ⟨here, there⟩ | ⟨_, _, here, there⟩ | ⟨target, here, there⟩ |
          ⟨_, _, here, there⟩
        · simp only [here, there]
        · simp only [here, there]
          split <;> rfl
        · simp only [here, there] at behind ⊢
          split
          · rfl
          · exact links location ⟨target⟩ steps behind
        · simp only [here, there] at behind ⊢
          exact ih behind

theorem followLink_outline (limit : Nat) (location : List FileName) (target : Path)
    (steps : List Step)
    (same : ∀ place ∈ top.linkTrail limit location target steps, LooksSame top other place) :
    (other.followLink purpose limit location target steps).map Place.outline =
      (top.followLink purpose limit location target steps).map Place.outline := by
  induction limit generalizing location target steps with
  | zero => rfl
  | succ limit ih =>
    simp only [followLink, linkTrail] at same ⊢
    split
    · rfl
    · next notEmpty =>
      rw [if_neg notEmpty] at same
      exact descend_outline ih same

end Directory

namespace FileSystem

variable {first second : FileSystem} {path : Path}

/-- The locations that are looked at when a path is used. -/
def trail (files : FileSystem) (path : Path) : List (List FileName) :=
  if path.text = "" ∨ '\x00' ∈ path.text.toList ∨ path.isTooLong then []
  else
    files.top.trail (files.top.linkTrail Directory.linkLimit)
      (if path.isAbsolute then [] else files.workingDirectory) path.steps

theorem resolve_outline (working : second.workingDirectory = first.workingDirectory)
    (same : ∀ place ∈ first.trail path, first.top.LooksSame second.top place) (purpose : Purpose) :
    (second.resolve purpose path).map Place.outline = (first.resolve purpose path).map Place.outline := by
  unfold resolve
  split
  · rfl
  · next notEmpty =>
    split
    · rfl
    · next free =>
      split
      · rfl
      · next short =>
        rw [trail, if_neg (by simp [notEmpty, free, short])] at same
        rw [working]
        exact Directory.descend_outline (Directory.followLink_outline _) same

/-- Two results that look the same. -/
theorem resolve_cases_of_outline {purpose : Purpose}
    (same : (second.resolve purpose path).map Place.outline =
      (first.resolve purpose path).map Place.outline) :
    (∃ error, first.resolve purpose path = .error error ∧ second.resolve purpose path = .error error) ∨
    (∃ location, first.resolve purpose path = .ok (.vacant location) ∧
      second.resolve purpose path = .ok (.vacant location)) ∨
    (∃ location content content',
      first.resolve purpose path = .ok (.node location (.leaf (.file content))) ∧
      second.resolve purpose path = .ok (.node location (.leaf (.file content')))) ∨
    (∃ location target, first.resolve purpose path = .ok (.node location (.leaf (.link target))) ∧
      second.resolve purpose path = .ok (.node location (.leaf (.link target)))) ∨
    ∃ location inner inner', first.resolve purpose path = .ok (.node location (.folder inner)) ∧
      second.resolve purpose path = .ok (.node location (.folder inner')) := by
  generalize first.resolve purpose path = here at same ⊢
  generalize second.resolve purpose path = there at same ⊢
  rcases here with error | (⟨location, ((content | target) | inner)⟩ | location) <;>
    rcases there with error' | (⟨location', ((content' | target') | inner')⟩ | location') <;>
      simp_all [Except.map, Place.outline, Node.outline]

theorem exists_file_of_outline {purpose : Purpose} {location : List FileName} {content : ByteArray}
    (same : (second.resolve purpose path).map Place.outline =
      (first.resolve purpose path).map Place.outline)
    (found : first.resolve purpose path = .ok (.node location (.leaf (.file content)))) :
    ∃ content', second.resolve purpose path = .ok (.node location (.leaf (.file content'))) := by
  rcases resolve_cases_of_outline same with ⟨_, here, -⟩ | ⟨_, here, -⟩ | ⟨_, _, content', here, there⟩ |
    ⟨_, _, here, -⟩ | ⟨_, _, _, here, -⟩
  all_goals cases found.symm.trans here
  exact ⟨content', there⟩

theorem exists_folder_of_outline {purpose : Purpose} {location : List FileName} {inner : Directory}
    (same : (second.resolve purpose path).map Place.outline =
      (first.resolve purpose path).map Place.outline)
    (found : first.resolve purpose path = .ok (.node location (.folder inner))) :
    ∃ inner', second.resolve purpose path = .ok (.node location (.folder inner')) := by
  rcases resolve_cases_of_outline same with ⟨_, here, -⟩ | ⟨_, here, -⟩ | ⟨_, _, _, here, -⟩ |
    ⟨_, _, here, -⟩ | ⟨_, _, inner', here, there⟩
  all_goals cases found.symm.trans here
  exact ⟨inner', there⟩

end FileSystem

end CopyrightHeader

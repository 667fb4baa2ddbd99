import CopyrightHeader.Proofs.PathTrail

/-! Trees that differ in what is not seen.

Some folders may hold anything, some links may lead anywhere, and files with some names may say
anything. Everything else is the same in both trees, entry by entry. A walk that keeps out of those
folders finds the same in both.
-/

set_option autoImplicit false

namespace CopyrightHeader

/-- The parts of a tree that may differ. -/
structure Unseen where
  /-- Files of this name may say anything. -/
  name : FileName → Prop
  /-- The folder at this location may hold anything. -/
  folder : List FileName → Prop
  /-- Links in the folder at this location may lead anywhere. -/
  links : List FileName → Prop

namespace Unseen

variable (unseen : Unseen) (files : FileSystem) (location : List FileName)

/-- Below a folder that may hold anything. -/
def Inside : Prop :=
  ∃ front name below, location = front ++ name :: below ∧ unseen.folder front

/-- Where something stands that may be different. -/
def Hides : Prop :=
  unseen.Inside location ∨
    (∃ front name target, location = front ++ [name] ∧
      files.top.nodeAt location = some (.leaf (.link target)) ∧ unseen.links front) ∨
    ∃ front name content, location = front ++ [name] ∧
      files.top.nodeAt location = some (.leaf (.file content)) ∧ unseen.name name

end Unseen

namespace Directory

/-- Two folders at a location with the same entries, apart from what is not seen. -/
inductive Alike (unseen : Unseen) : List FileName → Directory → Directory → Prop where
  | nil {location : List FileName} : Alike unseen location .nil .nil
  | file {location : List FileName} {name : FileName} {content content' : ByteArray}
      {rest rest' : Directory} (same : ¬ unseen.name name → content' = content)
      (others : Alike unseen location rest rest') :
      Alike unseen location (.leaf name (.file content) rest) (.leaf name (.file content') rest')
  | link {location : List FileName} {name : FileName} {target target' : String}
      {rest rest' : Directory} (same : ¬ unseen.links location → target' = target)
      (others : Alike unseen location rest rest') :
      Alike unseen location (.leaf name (.link target) rest) (.leaf name (.link target') rest')
  | sealed {location : List FileName} {name : FileName} {inner inner' rest rest' : Directory}
      (hidden : unseen.folder (location ++ [name])) (others : Alike unseen location rest rest') :
      Alike unseen location (.folder name inner rest) (.folder name inner' rest')
  | folder {location : List FileName} {name : FileName} {inner inner' rest rest' : Directory}
      (inside : Alike unseen (location ++ [name]) inner inner')
      (others : Alike unseen location rest rest') :
      Alike unseen location (.folder name inner rest) (.folder name inner' rest')

end Directory

/-- The same for what stands at a location, if anything does. -/
inductive Node.Alike (unseen : Unseen) : List FileName → Option Node → Option Node → Prop where
  | none {location : List FileName} : Node.Alike unseen location none none
  | file {front : List FileName} {name : FileName} {content content' : ByteArray}
      (same : ¬ unseen.name name → content' = content) :
      Node.Alike unseen (front ++ [name]) (some (.leaf (.file content)))
        (some (.leaf (.file content')))
  | link {front : List FileName} {name : FileName} {target target' : String}
      (same : ¬ unseen.links front → target' = target) :
      Node.Alike unseen (front ++ [name]) (some (.leaf (.link target))) (some (.leaf (.link target')))
  | folder {location : List FileName} {inner inner' : Directory}
      (inside : ¬ unseen.folder location → Directory.Alike unseen location inner inner') :
      Node.Alike unseen location (some (.folder inner)) (some (.folder inner'))

namespace Directory.Alike

variable {unseen : Unseen} {location : List FileName} {d d' : Directory}

theorem mapFiles (alike : Alike unseen location d d')
    (change : List FileName → ByteArray → ByteArray) :
    Alike unseen location (d.mapFiles change) (d'.mapFiles change) := by
  induction alike generalizing change with
  | nil => exact .nil
  | file same _ ih => exact .file (fun seen => congrArg _ (same seen)) (ih change)
  | link same _ ih => exact .link same (ih change)
  | sealed hidden _ ih => exact .sealed hidden (ih change)
  | folder _ _ ihInside ih => exact .folder (ihInside _) (ih change)

/-! ## Look-ups -/

theorem find? (alike : Alike unseen location d d') (name : FileName) :
    Node.Alike unseen (location ++ [name]) (d.find? name) (d'.find? name) := by
  induction alike with
  | nil => exact .none
  | file same _ ih =>
    simp only [Directory.find?]
    split
    · next here => exact here ▸ .file same
    · exact ih
  | link same _ ih =>
    simp only [Directory.find?]
    split
    · exact .link same
    · exact ih
  | sealed hidden _ ih =>
    simp only [Directory.find?]
    split
    · next here => exact .folder fun seen => absurd (here ▸ hidden) seen
    · exact ih
  | folder inside _ _ ih =>
    simp only [Directory.find?]
    split
    · next here => exact .folder fun _ => here ▸ inside
    · exact ih

/-- On the way to a location that is not inside a hidden folder both trees agree. -/
theorem nodeAt (alike : Alike unseen location d d') {way : List FileName}
    (outside : ¬ unseen.Inside (location ++ way)) :
    Node.Alike unseen (location ++ way) (d.nodeAt way) (d'.nodeAt way) := by
  induction way generalizing location d d' with
  | nil =>
    rw [List.append_nil]
    exact .folder fun _ => alike
  | cons name way ih =>
    have here := alike.find? name
    cases way with
    | nil =>
      rw [nodeAt_singleton, nodeAt_singleton]
      exact here
    | cons next way =>
      -- Below the name both go on if it is that of a folder that is seen.
      have deeper : location ++ name :: next :: way = (location ++ [name]) ++ next :: way := by simp
      have seen : ¬ unseen.folder (location ++ [name]) := fun hidden =>
        outside ⟨_, next, way, deeper, hidden⟩
      simp only [Directory.nodeAt]
      generalize d.find? name = first at here ⊢
      generalize d'.find? name = second at here ⊢
      generalize place : location ++ [name] = inFront at here
      cases here with
      | none => exact .none
      | file => exact .none
      | link => exact .none
      | folder inside =>
        rw [← place] at inside
        rw [deeper] at outside ⊢
        exact ih (inside seen) outside

/-! ## Walks -/

section

variable {excludes : Path → Bool} {base : Path}

/-- Hidden folders are left out, so what they hold makes no visit. -/
theorem visits_eq (alike : Alike unseen location d d')
    (leavesOut : ∀ way, unseen.folder (location ++ way) → excludes (base.below way) = true) :
    d'.visits excludes base = d.visits excludes base := by
  induction alike generalizing base with
  | nil => rfl
  | file _ _ ih => simp only [visits, ih leavesOut]
  | link _ _ ih => simp only [visits, ih leavesOut]
  | @sealed _ name _ _ _ _ hidden _ ih =>
    have excluded : excludes (base.join name.text) = true := leavesOut [name] hidden
    simp only [visits, excluded, if_true, ih leavesOut]
  | @folder location name _ _ _ _ _ _ ihInside ih =>
    have inside := @ihInside (base.join name.text) fun way hidden =>
      leavesOut (name :: way) (by rwa [List.append_assoc] at hidden)
    simp only [visits, inside, ih leavesOut]

theorem included_eq (alike : Alike unseen location d d')
    (leavesOut : ∀ way, unseen.folder (location ++ way) → excludes (base.below way) = true) :
    d'.included excludes base = d.included excludes base := by
  induction alike generalizing base with
  | nil => rfl
  | file _ _ ih => simp only [included, ih leavesOut]
  | link _ _ ih => simp only [included, ih leavesOut]
  | @sealed _ name _ _ _ _ hidden _ ih =>
    have excluded : excludes (base.join name.text) = true := leavesOut [name] hidden
    simp only [included, excluded, if_true, ih leavesOut]
  | @folder location name _ _ _ _ _ _ ihInside ih =>
    have inside := @ihInside (base.join name.text) fun way hidden =>
      leavesOut (name :: way) (by rwa [List.append_assoc] at hidden)
    simp only [included, inside, ih leavesOut]

end

end Directory.Alike

namespace FileSystem

/-- Two file systems that differ only in what is not seen. -/
structure Alike (unseen : Unseen) (first second : FileSystem) : Prop where
  workingDirectory : second.workingDirectory = first.workingDirectory
  top : Directory.Alike unseen [] first.top second.top

variable {unseen : Unseen} {first second : FileSystem}

theorem Alike.mapFiles (alike : Alike unseen first second)
    (change : List FileName → ByteArray → ByteArray) :
    Alike unseen (first.mapFiles change) (second.mapFiles change) where
  workingDirectory := alike.workingDirectory
  top := alike.top.mapFiles change

theorem Alike.nodeAt (alike : Alike unseen first second) {location : List FileName}
    (outside : ¬ unseen.Inside location) :
    Node.Alike unseen location (first.top.nodeAt location) (second.top.nodeAt location) :=
  alike.top.nodeAt outside

end FileSystem

end CopyrightHeader

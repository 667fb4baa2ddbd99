import CopyrightHeader.Proofs.FileContents
import CopyrightHeader.Proofs.PathSteps

/-! Where the paths below a folder lead.

Following a path is a matter of names, links and folders: contents have no part in it. A path that
leads to a folder, with names of entries joined to it, leads to the entry, and a path that is found
to be a file leads to it for every purpose.
-/

set_option autoImplicit false

namespace CopyrightHeader

/-- A place in the tree with changed contents. -/
def Place.mapFiles (change : List FileName → ByteArray → ByteArray) : Place → Place
  | .node location entry => .node location (entry.mapFiles change location)
  | .vacant location => .vacant location

namespace Directory

variable {top : Directory} {purpose other : Purpose}
  {onLink onLink' : List FileName → Path → List Step → Except OsError Place}
  {location : List FileName} {name : FileName} {rest : List Step}

/-! ## One step down -/

theorem descend_folder {inner : Directory}
    (here : top.nodeAt (location ++ [name]) = some (.folder inner))
    (opens : ¬ (rest = [.slash] ∧ purpose = .create)) :
    top.descend purpose onLink location (.down name :: rest) =
      top.descend purpose onLink (location ++ [name]) rest := by
  simp only [descend, if_neg opens, here]

theorem descend_link {target : String}
    (here : top.nodeAt (location ++ [name]) = some (.leaf (.link target)))
    (opens : ¬ (rest = [.slash] ∧ purpose = .create)) (follows : ¬ (rest = [] ∧ purpose = .inspect)) :
    top.descend purpose onLink location (.down name :: rest) = onLink location ⟨target⟩ rest := by
  simp only [descend, if_neg opens, here, if_neg follows]

theorem descend_file {content : ByteArray}
    (here : top.nodeAt (location ++ [name]) = some (.leaf (.file content))) :
    top.descend purpose onLink location [.down name] =
      .ok (.node (location ++ [name]) (.leaf (.file content))) := by
  simp [descend, here]

/-- All that a step down can come to, if it does not fail. -/
theorem descend_down_cases {place : Place}
    (found : top.descend purpose onLink location (.down name :: rest) = .ok place) :
    (∃ inner, top.nodeAt (location ++ [name]) = some (.folder inner) ∧
      top.descend purpose onLink (location ++ [name]) rest = .ok place) ∨
    (∃ target, top.nodeAt (location ++ [name]) = some (.leaf (.link target)) ∧
      (rest = [] ∧ purpose = .inspect ∧
          place = .node (location ++ [name]) (.leaf (.link target)) ∨
        ¬ (rest = [] ∧ purpose = .inspect) ∧ onLink location ⟨target⟩ rest = .ok place)) ∨
    (∃ content, top.nodeAt (location ++ [name]) = some (.leaf (.file content)) ∧ rest = [] ∧
      place = .node (location ++ [name]) (.leaf (.file content))) ∨
    top.nodeAt (location ++ [name]) = none ∧ rest = [] ∧ place = .vacant (location ++ [name]) := by
  simp only [descend] at found
  split at found
  · cases found
  · split at found
    · next inner here => exact .inl ⟨inner, here, found⟩
    · next target here =>
      refine .inr (.inl ⟨target, here, ?_⟩)
      split at found
      · next looks => exact .inl ⟨looks.1, looks.2, (Except.ok.inj found).symm⟩
      · next follows => exact .inr ⟨follows, found⟩
    · next content here =>
      split at found
      · next done => exact .inr (.inr (.inl ⟨content, here, done, (Except.ok.inj found).symm⟩))
      · cases found
    · next here =>
      split at found
      · next done => exact .inr (.inr (.inr ⟨here, done, (Except.ok.inj found).symm⟩))
      · cases found

theorem followLink_eq_ok {limit : Nat} {target : Path} {place : Place} :
    top.followLink purpose limit location target rest = .ok place ↔
      ∃ less, limit = less + 1 ∧ target.text ≠ "" ∧
        top.descend purpose (top.followLink purpose less)
          (if target.isAbsolute then [] else location) (target.steps ++ rest) = .ok place := by
  cases limit with
  | zero => simp [followLink]
  | succ less =>
    rw [followLink]
    by_cases empty : target.text = ""
    · simp [empty]
    · simp [empty]

/-- What is said to be at the end of a path is there. -/
def TellsNodes (top : Directory) (follow : List Step → Except OsError Place) : Prop :=
  ∀ steps reached node, follow steps = .ok (.node reached node) → top.nodeAt reached = some node

theorem tellsNodes_descend (links : ∀ location target, TellsNodes top (onLink location target))
    (location : List FileName) : TellsNodes top (top.descend purpose onLink location) := by
  intro steps reached node found
  induction steps generalizing location with
  | nil =>
    simp only [descend] at found
    split at found
    · next here =>
      simp only [Except.ok.injEq, Place.node.injEq] at found
      rw [← found.1, here, found.2]
    · cases found
  | cons step steps ih =>
    cases step with
    | stay => exact ih location (by simpa only [descend] using found)
    | slash => exact ih location (by simpa only [descend] using found)
    | up => exact ih _ (by simpa only [descend] using found)
    | overlong =>
      simp only [descend] at found
      split at found <;> cases found
    | down next =>
      rcases descend_down_cases found with ⟨_, -, goesOn⟩ | ⟨target, here, ⟨_, _, same⟩ | follows⟩ |
        ⟨_, here, _, same⟩ | ⟨_, _, same⟩
      · exact ih _ goesOn
      · cases same
        exact here
      · exact links location ⟨target⟩ steps reached node follows.2
      · cases same
        exact here
      · cases same

theorem tellsNodes_followLink (limit : Nat) (location : List FileName) (target : Path) :
    TellsNodes top (top.followLink purpose limit location target) := by
  induction limit generalizing location target with
  | zero =>
    intro steps reached node found
    cases found
  | succ limit ih =>
    intro steps reached node found
    obtain ⟨less, same, -, goesOn⟩ := followLink_eq_ok.1 found
    cases same
    exact tellsNodes_descend ih _ _ reached node goesOn

/-! ## Paths below a folder -/

/-- Whatever leads to a folder, perhaps by a final separator, leads on to the files below it. -/
def LeadsBelow (top : Directory) (follow follow' : List Step → Except OsError Place) : Prop :=
  ∀ steps final reached inner, (final = [] ∨ final = [.slash]) →
    follow (steps ++ final) = .ok (.node reached (.folder inner)) →
    ∀ name below content, top.nodeAt (reached ++ name :: below) = some (.leaf (.file content)) →
      follow' (steps ++ (name :: below).map .down) =
        .ok (.node (reached ++ name :: below) (.leaf (.file content)))

theorem ne_slash_of_down (steps : List Step) (name : FileName) (below : List FileName) :
    steps ++ (name :: below).map .down ≠ [.slash] := by
  intro same
  cases steps with
  | nil => simp at same
  | cons step steps => simp at same

theorem descend_downs {content : ByteArray} (below : List FileName)
    (found : top.nodeAt (location ++ name :: below) = some (.leaf (.file content))) :
    top.descend purpose onLink location ((name :: below).map .down) =
      .ok (.node (location ++ name :: below) (.leaf (.file content))) := by
  induction below generalizing location name with
  | nil => exact descend_file found
  | cons next below ih =>
    have split : location ++ name :: next :: below = (location ++ [name]) ++ next :: below := by simp
    rw [split] at found ⊢
    obtain ⟨inner, here⟩ := holdsFolder_of_nodeAt_append found
    rw [List.map_cons, descend_folder here (by simp)]
    exact ih found

theorem leadsBelow_descend
    (links : ∀ location target, LeadsBelow top (onLink location target) (onLink' location target))
    (location : List FileName) :
    LeadsBelow top (top.descend purpose onLink location) (top.descend other onLink' location) := by
  intro steps final reached inner shape found name below content file
  induction steps generalizing location with
  | nil =>
    have stays : top.descend purpose onLink location [] = .ok (.node reached (.folder inner)) := by
      rcases shape with rfl | rfl
      · exact found
      · simpa only [List.nil_append, descend] using found
    -- No step is left, so the folder is the one that is stood in.
    have same : location = reached := by
      simp only [descend] at stays
      split at stays
      · simp only [Except.ok.injEq, Place.node.injEq] at stays
        exact stays.1
      · cases stays
    rw [same]
    exact descend_downs below file
  | cons step steps ih =>
    rw [List.cons_append] at found ⊢
    cases step with
    | stay =>
      simp only [descend] at found ⊢
      exact ih location found
    | slash =>
      simp only [descend] at found ⊢
      exact ih location found
    | up =>
      simp only [descend] at found ⊢
      exact ih _ found
    | overlong =>
      simp only [descend] at found
      split at found <;> cases found
    | down next =>
      -- With a name behind it no step is the last, so it is taken alike for every purpose.
      have opens : ¬ (steps ++ (name :: below).map .down = [.slash] ∧ other = .create) :=
        fun both => ne_slash_of_down steps name below both.1
      rcases descend_down_cases found with ⟨_, here, goesOn⟩ | ⟨target, here, looks | follows⟩ |
        ⟨_, _, _, same⟩ | ⟨_, _, same⟩
      · rw [descend_folder here opens]
        exact ih _ goesOn
      · simp at looks
      · rw [descend_link here opens (by simp)]
        exact links location ⟨target⟩ steps final reached inner shape follows.2 name below content file
      · simp at same
      · cases same

theorem leadsBelow_followLink (limit : Nat) (location : List FileName) (target : Path) :
    LeadsBelow top (top.followLink purpose limit location target)
      (top.followLink other limit location target) := by
  induction limit generalizing location target with
  | zero =>
    intro steps final reached inner _ found
    cases found
  | succ limit ih =>
    intro steps final reached inner shape found name below content file
    obtain ⟨less, same, notEmpty, goesOn⟩ := followLink_eq_ok.1 found
    cases same
    refine followLink_eq_ok.2 ⟨limit, rfl, notEmpty, ?_⟩
    rw [← List.append_assoc] at goesOn ⊢
    exact leadsBelow_descend ih _ _ final reached inner shape goesOn name below content file

/-! ## Paths to files -/

/-- With a separator at the end no file is found. -/
def OpensFolders (follow : List Step → Except OsError Place) : Prop :=
  ∀ steps reached content, follow (steps ++ [.slash]) ≠ .ok (.node reached (.leaf (.file content)))

theorem opensFolders_descend
    (links : ∀ location target, top.HoldsFolder location → OpensFolders (onLink location target))
    (folder : top.HoldsFolder location) : OpensFolders (top.descend purpose onLink location) := by
  intro steps reached content found
  induction steps generalizing location with
  | nil =>
    obtain ⟨inner, here⟩ := folder
    simp [descend, here] at found
  | cons step steps ih =>
    rw [List.cons_append] at found
    cases step with
    | stay => exact ih folder (by simpa only [descend] using found)
    | slash => exact ih folder (by simpa only [descend] using found)
    | up => exact ih folder.dropLast (by simpa only [descend] using found)
    | overlong =>
      simp only [descend] at found
      split at found <;> cases found
    | down next =>
      rcases descend_down_cases found with ⟨inner, here, goesOn⟩ | ⟨target, -, looks | follows⟩ |
        ⟨_, _, done, _⟩ | ⟨_, _, same⟩
      · exact ih ⟨inner, here⟩ goesOn
      · simp at looks
      · exact links location ⟨target⟩ folder steps reached content follows.2
      · simp at done
      · cases same

theorem opensFolders_followLink (limit : Nat) (location : List FileName) (target : Path)
    (folder : top.HoldsFolder location) :
    OpensFolders (top.followLink purpose limit location target) := by
  induction limit generalizing location target with
  | zero =>
    intro steps reached content found
    cases found
  | succ limit ih =>
    intro steps reached content found
    obtain ⟨less, same, -, goesOn⟩ := followLink_eq_ok.1 found
    cases same
    rw [← List.append_assoc] at goesOn
    exact opensFolders_descend ih (folder.start target) _ reached content goesOn

/-- What the one finds to be a file, the other finds as well. -/
def FindsFiles (follow follow' : List Step → Except OsError Place) : Prop :=
  ∀ steps reached content, follow steps = .ok (.node reached (.leaf (.file content))) →
    follow' steps = .ok (.node reached (.leaf (.file content)))

/-- A file that is found for one purpose is found for another, unless that one stops at links. -/
theorem findsFiles_descend (stops : other = .inspect → purpose = .inspect)
    (opens : ∀ location target, top.HoldsFolder location → OpensFolders (onLink location target))
    (links : ∀ location target, top.HoldsFolder location →
      FindsFiles (onLink location target) (onLink' location target))
    (location : List FileName) :
    FindsFiles (top.descend purpose onLink location) (top.descend other onLink' location) := by
  intro steps reached content found
  induction steps generalizing location with
  | nil => exact found
  | cons step steps ih =>
    cases step with
    | stay =>
      simp only [descend] at found ⊢
      exact ih location found
    | slash =>
      simp only [descend] at found ⊢
      exact ih location found
    | up =>
      simp only [descend] at found ⊢
      exact ih _ found
    | overlong =>
      simp only [descend] at found
      split at found <;> cases found
    | down next =>
      rcases descend_down_cases found with ⟨inner, here, goesOn⟩ | ⟨target, here, looks | follows⟩ |
        ⟨_, here, rfl, same⟩ | ⟨_, _, same⟩
      · rw [descend_folder here]
        · exact ih _ goesOn
        · rintro ⟨rfl, -⟩
          simp [descend, here] at goesOn
      · cases looks.2.2
      · have folder := holdsFolder_of_nodeAt_append here
        rw [descend_link here]
        · exact links location ⟨target⟩ folder steps reached content follows.2
        -- A link with a separator behind it leads to a folder and to no file.
        · rintro ⟨rfl, -⟩
          exact opens location ⟨target⟩ folder [] reached content follows.2
        · exact fun both => follows.1 ⟨both.1, stops both.2⟩
      · rw [descend_file here, same]
      · cases same

theorem findsFiles_followLink (stops : other = .inspect → purpose = .inspect) (limit : Nat)
    (location : List FileName) (target : Path) (folder : top.HoldsFolder location) :
    FindsFiles (top.followLink purpose limit location target)
      (top.followLink other limit location target) := by
  induction limit generalizing location target with
  | zero =>
    intro steps reached content found
    cases found
  | succ limit ih =>
    intro steps reached content found
    obtain ⟨less, same, notEmpty, goesOn⟩ := followLink_eq_ok.1 found
    cases same
    refine followLink_eq_ok.2 ⟨limit, rfl, notEmpty, ?_⟩
    exact findsFiles_descend stops (opensFolders_followLink limit) ih _ _ reached content goesOn

/-! ## Looking at the end of a path, and using it -/

/-- Both end alike, unless looking ends at a link, which use goes on from. -/
def LooksFirst (look use : List Step → Except OsError Place) : Prop :=
  ∀ steps, look steps = use steps ∨
    ∃ location target, look steps = .ok (.node location (.leaf (.link target)))

theorem looksFirst_descend
    (links : ∀ location target, LooksFirst (onLink location target) (onLink' location target))
    (location : List FileName) :
    LooksFirst (top.descend .inspect onLink location) (top.descend .use onLink' location) := by
  intro steps
  induction steps generalizing location with
  | nil => exact .inl rfl
  | cons step steps ih =>
    cases step with
    | stay => exact ih location
    | slash => exact ih location
    | up => exact ih _
    | overlong => exact .inl (by simp [descend])
    | down next =>
      have opens (purpose : Purpose) (notCreate : purpose ≠ .create) :
          ¬ (steps = [.slash] ∧ purpose = .create) := fun both => notCreate both.2
      simp only [descend, if_neg (opens .inspect nofun), if_neg (opens .use nofun)]
      cases top.nodeAt (location ++ [next]) with
      | none => exact .inl rfl
      | some node =>
        cases node with
        | folder inner => exact ih _
        | leaf entry =>
          cases entry with
          | file content => exact .inl rfl
          | link target =>
            -- Only a link that nothing stands behind is looked at.
            by_cases last : steps = []
            · exact .inr ⟨location ++ [next], target, by simp [last]⟩
            · simpa [last] using links location ⟨target⟩ steps

theorem looksFirst_followLink (limit : Nat) (location : List FileName) (target : Path) :
    LooksFirst (top.followLink .inspect limit location target)
      (top.followLink .use limit location target) := by
  induction limit generalizing location target with
  | zero => exact fun _ => .inl rfl
  | succ limit ih =>
    intro steps
    simp only [followLink]
    split
    · exact .inl rfl
    · exact looksFirst_descend ih _ _

/-! ## Changed contents -/

theorem descend_mapFiles (change : List FileName → ByteArray → ByteArray)
    (links : ∀ location target steps,
      onLink' location target steps = (onLink location target steps).map (Place.mapFiles change))
    (location : List FileName) (steps : List Step) :
    (top.mapFiles change).descend purpose onLink' location steps =
      (top.descend purpose onLink location steps).map (Place.mapFiles change) := by
  induction steps generalizing location with
  | nil =>
    simp only [descend, nodeAt_mapFiles]
    cases top.nodeAt location <;> rfl
  | cons step steps ih =>
    cases step with
    | stay => simpa only [descend] using ih location
    | slash => simpa only [descend] using ih location
    | up => simpa only [descend] using ih _
    | overlong =>
      simp only [descend]
      split <;> rfl
    -- Only the kind of the entry counts, and a change of contents keeps it.
    | down next =>
      simp only [descend, nodeAt_mapFiles]
      split
      · rfl
      · cases top.nodeAt (location ++ [next]) with
        | none =>
          simp only [Option.map_none]
          split <;> rfl
        | some node =>
          cases node with
          | folder inner => exact ih _
          | leaf entry =>
            cases entry with
            | file content =>
              simp only [Option.map_some, Node.mapFiles]
              split <;> rfl
            | link target =>
              simp only [Option.map_some, Node.mapFiles]
              split
              · rfl
              · exact links location ⟨target⟩ steps

theorem followLink_mapFiles (change : List FileName → ByteArray → ByteArray) (limit : Nat)
    (location : List FileName) (target : Path) (steps : List Step) :
    (top.mapFiles change).followLink purpose limit location target steps =
      (top.followLink purpose limit location target steps).map (Place.mapFiles change) := by
  induction limit generalizing location target steps with
  | zero => rfl
  | succ limit ih =>
    simp only [followLink]
    split
    · rfl
    · exact descend_mapFiles change ih _ _

end Directory

end CopyrightHeader

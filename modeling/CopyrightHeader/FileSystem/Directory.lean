import CopyrightHeader.Path

/-! Directory trees: files with their bytes, symbolic links and folders, by increasing name. -/

set_option autoImplicit false

namespace CopyrightHeader

def FileName.limit : Nat := 255

/-- A text that can name an entry of a directory. -/
def IsFileName (text : String) : Prop :=
  text ≠ "" ∧ text ≠ "." ∧ text ≠ ".." ∧ '/' ∉ text.toList ∧ '\x00' ∉ text.toList ∧
    text.utf8ByteSize ≤ FileName.limit

instance (text : String) : Decidable (IsFileName text) :=
  inferInstanceAs (Decidable (_ ∧ _ ∧ _ ∧ _ ∧ _ ∧ _))

structure FileName where
  text : String
  isFileName : IsFileName text
  deriving DecidableEq

namespace FileName

def ofString? (text : String) : Option FileName :=
  if h : IsFileName text then some ⟨text, h⟩ else none

/-- Names are ordered by their characters, which is also the order of their UTF-8 bytes. -/
instance : LT FileName := ⟨fun a b => a.text < b.text⟩

instance (a b : FileName) : Decidable (a < b) := inferInstanceAs (Decidable (a.text < b.text))

theorem ext_text {a b : FileName} (h : a.text = b.text) : a = b := by
  cases a; cases b; simp_all

theorem lt_irrefl (a : FileName) : ¬ a < a := String.lt_irrefl a.text

theorem lt_trans {a b c : FileName} (hab : a < b) (hbc : b < c) : a < c :=
  String.lt_trans hab hbc

theorem lt_of_not_lt_of_ne {a b : FileName} (h : ¬ a < b) (ne : a ≠ b) : b < a := by
  have le : b.text ≤ a.text := String.not_lt.1 h
  refine Decidable.byContradiction fun nlt => ne (ext_text ?_)
  exact String.le_antisymm (String.not_lt.1 nlt) le

end FileName

inductive Leaf where
  | file (content : ByteArray)
  | link (target : String)

instance : DecidableEq Leaf
  | .file a, .file b =>
    @decidable_of_iff _ (a = b) ⟨congrArg _, Leaf.file.inj⟩ (ByteArray.instDecidableEq a b)
  | .link a, .link b => decidable_of_iff (a = b) ⟨congrArg _, Leaf.link.inj⟩
  | .file _, .link _ => .isFalse nofun
  | .link _, .file _ => .isFalse nofun

inductive Directory where
  | nil
  | leaf (name : FileName) (leaf : Leaf) (rest : Directory)
  | folder (name : FileName) (inner rest : Directory)
  deriving DecidableEq

inductive Node where
  | leaf (leaf : Leaf)
  | folder (inner : Directory)
  deriving DecidableEq

namespace Directory

def cons (name : FileName) : Node → Directory → Directory
  | .leaf entry, rest => .leaf name entry rest
  | .folder inner, rest => .folder name inner rest

def names : Directory → List FileName
  | .nil => []
  | .leaf name _ rest => name :: rest.names
  | .folder name _ rest => name :: rest.names

/-- Every folder of the tree holds its entries by strictly increasing name. -/
def Ordered : Directory → Prop
  | .nil => True
  | .leaf name _ rest => (∀ other ∈ rest.names, name < other) ∧ rest.Ordered
  | .folder name inner rest =>
    (∀ other ∈ rest.names, name < other) ∧ inner.Ordered ∧ rest.Ordered

def decideOrdered : (d : Directory) → Decidable d.Ordered
  | .nil => .isTrue trivial
  | .leaf _ _ rest => @instDecidableAnd _ _ inferInstance rest.decideOrdered
  | .folder _ inner rest =>
    @instDecidableAnd _ _ inferInstance
      (@instDecidableAnd _ _ inner.decideOrdered rest.decideOrdered)

instance (d : Directory) : Decidable d.Ordered := d.decideOrdered

def find? : Directory → FileName → Option Node
  | .nil, _ => none
  | .leaf name entry rest, wanted => if name = wanted then some (.leaf entry) else rest.find? wanted
  | .folder name inner rest, wanted =>
    if name = wanted then some (.folder inner) else rest.find? wanted

/-- The node at a location, a list of names from the top. Links are not followed. -/
def nodeAt (d : Directory) : List FileName → Option Node
  | [] => some (.folder d)
  | name :: location =>
    match d.find? name, location with
    | some node, [] => some node
    | some (.folder inner), _ :: _ => inner.nodeAt location
    | _, _ => none

/-- A folder stands at the location. -/
def HoldsFolder (d : Directory) (location : List FileName) : Prop :=
  ∃ inner, d.nodeAt location = some (.folder inner)

instance (d : Directory) (location : List FileName) : Decidable (d.HoldsFolder location) :=
  match found : d.nodeAt location with
  | some (.folder inner) => .isTrue ⟨inner, found⟩
  | some (.leaf _) => .isFalse fun ⟨_, here⟩ => nomatch found.symm.trans here
  | none => .isFalse fun ⟨_, here⟩ => nomatch found.symm.trans here

/-- The tree that holds the folders on the way to a location, and nothing else. -/
def wayTo : List FileName → Directory
  | [] => .nil
  | name :: location => .folder name (wayTo location) .nil

/-- Puts a node under a name, in place of the one that is there or in its place in the order. -/
def insert (name : FileName) (node : Node) : Directory → Directory
  | .nil => cons name node .nil
  | .leaf other entry rest =>
    if name < other then cons name node (.leaf other entry rest)
    else if name = other then cons name node rest
    else .leaf other entry (insert name node rest)
  | .folder other inner rest =>
    if name < other then cons name node (.folder other inner rest)
    else if name = other then cons name node rest
    else .folder other inner (insert name node rest)

def erase (wanted : FileName) : Directory → Directory
  | .nil => .nil
  | .leaf name entry rest =>
    if name = wanted then rest else .leaf name entry (erase wanted rest)
  | .folder name inner rest =>
    if name = wanted then rest else .folder name inner (erase wanted rest)

/-- Changes the folder at a location; nothing if there is none. -/
def modifyAt (change : Directory → Directory) : List FileName → Directory → Directory
  | [], d => change d
  | name :: location, d =>
    match d.find? name with
    | some (.folder inner) => d.insert name (.folder (modifyAt change location inner))
    | _ => d

theorem nodeAt_folder_self {name : FileName} (inner rest : Directory) (next : FileName)
    (below : List FileName) :
    (folder name inner rest).nodeAt (name :: next :: below) = inner.nodeAt (next :: below) := by
  simp only [nodeAt, find?, if_pos]

theorem ordered_wayTo (location : List FileName) : (wayTo location).Ordered := by
  induction location with
  | nil => trivial
  | cons name location ih => exact ⟨fun _ member => absurd member List.not_mem_nil, ih, trivial⟩

theorem holdsFolder_wayTo (location : List FileName) : (wayTo location).HoldsFolder location := by
  induction location with
  | nil => exact ⟨_, rfl⟩
  | cons name location ih =>
    cases location with
    | nil => exact ⟨.nil, by simp [wayTo, nodeAt, find?]⟩
    | cons next location =>
      obtain ⟨inner, here⟩ := ih
      exact ⟨inner, (nodeAt_folder_self _ _ next location).trans here⟩

@[simp] theorem names_cons (name : FileName) (node : Node) (rest : Directory) :
    (cons name node rest).names = name :: rest.names := by
  cases node <;> rfl

theorem ordered_cons {name : FileName} {node : Node} {rest : Directory}
    (above : ∀ other ∈ rest.names, name < other) (ordered : rest.Ordered)
    (inner : ∀ d, node = .folder d → d.Ordered) : (cons name node rest).Ordered := by
  cases node with
  | leaf entry => exact ⟨above, ordered⟩
  | folder d => exact ⟨above, inner d rfl, ordered⟩

theorem mem_names_insert {name other : FileName} {node : Node} {d : Directory}
    (h : other ∈ (d.insert name node).names) : other = name ∨ other ∈ d.names := by
  induction d with
  | nil => simpa [insert, names] using h
  | leaf n entry rest ih =>
    rw [insert] at h
    split at h
    · simpa [names] using h
    · split at h
      · simp only [names_cons, List.mem_cons] at h
        exact h.imp id (List.mem_cons_of_mem _)
      · simp only [names, List.mem_cons] at h ⊢
        rcases h with h | h
        · exact .inr (.inl h)
        · exact (ih h).imp id .inr
  | folder n inner rest _ ih =>
    rw [insert] at h
    split at h
    · simpa [names] using h
    · split at h
      · simp only [names_cons, List.mem_cons] at h
        exact h.imp id (List.mem_cons_of_mem _)
      · simp only [names, List.mem_cons] at h ⊢
        rcases h with h | h
        · exact .inr (.inl h)
        · exact (ih h).imp id .inr

theorem Ordered.insert {d : Directory} (ordered : d.Ordered) (name : FileName) {node : Node}
    (inner : ∀ i, node = .folder i → i.Ordered) : (d.insert name node).Ordered := by
  induction d with
  | nil => exact ordered_cons (by simp [names]) trivial inner
  | leaf n entry rest ih =>
    rw [Directory.insert]
    split
    · next lt =>
      refine ordered_cons (fun other mem => ?_) ordered inner
      rcases List.mem_cons.1 mem with h | h
      · exact h ▸ lt
      · exact FileName.lt_trans lt (ordered.1 other h)
    · next nlt =>
      split
      · next eq => exact ordered_cons (fun other mem => eq ▸ ordered.1 other mem) ordered.2 inner
      · next ne =>
        refine ⟨fun other mem => ?_, ih ordered.2⟩
        rcases mem_names_insert mem with h | h
        · exact h ▸ FileName.lt_of_not_lt_of_ne nlt ne
        · exact ordered.1 other h
  | folder n d rest _ ih =>
    rw [Directory.insert]
    split
    · next lt =>
      refine ordered_cons (fun other mem => ?_) ordered inner
      rcases List.mem_cons.1 mem with h | h
      · exact h ▸ lt
      · exact FileName.lt_trans lt (ordered.1 other h)
    · next nlt =>
      split
      · next eq => exact ordered_cons (fun other mem => eq ▸ ordered.1 other mem) ordered.2.2 inner
      · next ne =>
        refine ⟨fun other mem => ?_, ordered.2.1, ih ordered.2.2⟩
        rcases mem_names_insert mem with h | h
        · exact h ▸ FileName.lt_of_not_lt_of_ne nlt ne
        · exact ordered.1 other h

theorem mem_names_erase {wanted other : FileName} {d : Directory}
    (h : other ∈ (d.erase wanted).names) : other ∈ d.names := by
  induction d with
  | nil => exact h
  | leaf n entry rest ih =>
    rw [erase] at h
    split at h
    · exact List.mem_cons_of_mem _ h
    · exact (List.mem_cons.1 h).elim (· ▸ List.mem_cons_self) fun h => List.mem_cons_of_mem _ (ih h)
  | folder n inner rest _ ih =>
    rw [erase] at h
    split at h
    · exact List.mem_cons_of_mem _ h
    · exact (List.mem_cons.1 h).elim (· ▸ List.mem_cons_self) fun h => List.mem_cons_of_mem _ (ih h)

theorem Ordered.erase {d : Directory} (ordered : d.Ordered) (wanted : FileName) :
    (d.erase wanted).Ordered := by
  induction d with
  | nil => trivial
  | leaf n entry rest ih =>
    rw [Directory.erase]
    split
    · exact ordered.2
    · exact ⟨fun other mem => ordered.1 other (mem_names_erase mem), ih ordered.2⟩
  | folder n inner rest _ ih =>
    rw [Directory.erase]
    split
    · exact ordered.2.2
    · exact ⟨fun other mem => ordered.1 other (mem_names_erase mem), ordered.2.1, ih ordered.2.2⟩

theorem Ordered.inner_of_find? {d inner : Directory} {name : FileName} (ordered : d.Ordered)
    (found : d.find? name = some (.folder inner)) : inner.Ordered := by
  induction d with
  | nil => simp [find?] at found
  | leaf n entry rest ih =>
    rw [find?] at found
    split at found
    · simp at found
    · exact ih ordered.2 found
  | folder n i rest _ ih =>
    rw [find?] at found
    split at found
    · simp only [Option.some.injEq, Node.folder.injEq] at found
      exact found ▸ ordered.2.1
    · exact ih ordered.2.2 found

theorem Ordered.modifyAt {change : Directory → Directory}
    (keeps : ∀ d : Directory, d.Ordered → (change d).Ordered) (location : List FileName)
    {d : Directory} (ordered : d.Ordered) : (d.modifyAt change location).Ordered := by
  induction location generalizing d with
  | nil => exact keeps d ordered
  | cons name location ih =>
    rw [Directory.modifyAt]
    split
    · next inner found =>
      refine ordered.insert name fun i same => ?_
      simp only [Node.folder.injEq] at same
      exact same ▸ ih (ordered.inner_of_find? found)
    · exact ordered

end Directory

end CopyrightHeader

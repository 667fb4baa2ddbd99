/-! Paths as they are written, and the components they are read as.

Repeated and trailing separators and inner `.` components carry no meaning. A `.` at the start of
a relative path is a component of its own, and `..` is never resolved against what is in front.
-/

set_option autoImplicit false

namespace CopyrightHeader

structure Path where
  text : String
  deriving DecidableEq, Repr

namespace Path

inductive Component where
  | root
  | current
  | parent
  | name (text : String)
  deriving DecidableEq, Repr

def Component.text : Component → String
  | .root => "/"
  | .current => "."
  | .parent => ".."
  | .name text => text

/-- The parts between separators; one part more than there are separators. -/
def splitSeparators : List Char → List (List Char)
  | [] => [[]]
  | c :: rest =>
    if c = '/' then [] :: splitSeparators rest
    else
      match splitSeparators rest with
      | [] => [[c]]
      | part :: parts => (c :: part) :: parts

/-- A part that does not stand at the start of a relative path. -/
def innerComponent (part : List Char) : Option Component :=
  if part = [] ∨ part = ['.'] then none
  else if part = ['.', '.'] then some .parent
  else some (.name (String.ofList part))

def isAbsolute (path : Path) : Bool :=
  path.text.toList.head? = some '/'

def components (path : Path) : List Component :=
  match splitSeparators path.text.toList with
  | [] :: part :: parts => .root :: (part :: parts).filterMap innerComponent
  | ['.'] :: parts => .current :: parts.filterMap innerComponent
  | parts => parts.filterMap innerComponent

/-- The path of `name` below `path`; an absolute name stands for itself. -/
def join (path : Path) (name : String) : Path :=
  if name.toList.head? = some '/' then ⟨name⟩
  else if path.text = "" ∨ path.text.toList.getLast? = some '/' then ⟨path.text ++ name⟩
  else ⟨path.text ++ "/" ++ name⟩

/-- The plainest way to write the components. -/
def ofComponents (components : List Component) : Path :=
  components.foldl (fun path component => path.join component.text) ⟨""⟩

def fileName (path : Path) : Option String :=
  match path.components.getLast? with
  | some (.name text) => some text
  | _ => none

/-- What is left of a list of components behind those of `base`. -/
def stripBase : (base components : List Component) → Option (List Component)
  | [], components => some components
  | _ :: _, [] => none
  | b :: base, c :: components => if b = c then stripBase base components else none

theorem stripBase_eq_some {base components relative : List Component} :
    stripBase base components = some relative ↔ components = base ++ relative := by
  induction base generalizing components with
  | nil => simp [stripBase]
  | cons b base ih =>
    cases components with
    | nil => simp [stripBase]
    | cons c components =>
      by_cases h : b = c
      · simp [stripBase, h, ih]
      · simp [stripBase, h, Ne.symm h]

/-- The components of `path` below `base`, if `path` begins with those of `base`. -/
def relativeTo (path base : Path) : Option (List Component) :=
  stripBase base.components path.components

end Path

end CopyrightHeader

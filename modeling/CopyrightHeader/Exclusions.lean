import CopyrightHeader.Path

/-! Subtrees that a walk leaves out.

An entry names a subtree by its path from the root of the walk and is compared component by
component: `third_party` does not leave out `third_party_tools`. The root itself is never left out.
-/

set_option autoImplicit false

namespace CopyrightHeader

structure Exclusions where
  subtrees : List Path
  deriving DecidableEq, Repr

namespace Exclusions

/-- An entry in its plainest form; `none` if nothing is left of it. -/
def normalize (entry : String) : Option Path :=
  match (Path.mk entry).components.filter (· ≠ .current) with
  | [] => none
  | components => some (Path.ofComponents components)

def ofEntries (entries : List String) : Exclusions :=
  ⟨entries.filterMap normalize⟩

def default : Exclusions := ofEntries ["third_party", ".git"]

/-- Whether `directory`, a path under `root`, is left out with all that is below it. -/
def excludes (exclusions : Exclusions) (root directory : Path) : Bool :=
  match directory.relativeTo root with
  | none => false
  | some relative =>
    !relative.isEmpty &&
      exclusions.subtrees.any fun subtree => subtree.components.isPrefixOf relative

end Exclusions

end CopyrightHeader

import CopyrightHeader.SortedMap

/-! What a finished run has done. -/

set_option autoImplicit false

namespace CopyrightHeader

structure Summary where
  updated : SortedMap Nat
  skipped : Nat

namespace Summary

def empty : Summary := ⟨.empty, 0⟩

def record (summary : Summary) (style : String) : Summary :=
  { summary with updated := summary.updated.alter style fun count => count.getD 0 + 1 }

def skip (summary : Summary) : Summary := { summary with skipped := summary.skipped + 1 }

def total (summary : Summary) : Nat :=
  summary.updated.entries.foldr (fun entry total => entry.2 + total) 0

def line (summary : Summary) : String :=
  let total := summary.total
  if total = 0 then s!"Updated 0 files, skipped {summary.skipped}"
  else
    let noun := if total = 1 then "file" else "files"
    let counts := summary.updated.entries.map fun (style, count) => s!"{count} {style}"
    let styles := ", ".intercalate counts
    s!"Updated {total} {noun} ({styles}), skipped {summary.skipped}"

end Summary

end CopyrightHeader

/-! Finite maps from texts, kept by increasing key. -/

set_option autoImplicit false

namespace CopyrightHeader

/-- Entries with strictly increasing keys. Keys are ordered by their characters, which is also the
order of their UTF-8 bytes. -/
structure SortedMap (α : Type) where
  entries : List (String × α)
  increasing : entries.Pairwise fun a b => a.1 < b.1

namespace SortedMap

variable {α : Type}

def empty : SortedMap α := ⟨[], .nil⟩

def keys (map : SortedMap α) : List String := map.entries.map (·.1)

def size (map : SortedMap α) : Nat := map.entries.length

def get? (map : SortedMap α) (key : String) : Option α := map.entries.lookup key

/-- Gives `key` a value made from the one it has. -/
def alterEntries (key : String) (change : Option α → α) : List (String × α) → List (String × α)
  | [] => [(key, change none)]
  | (other, value) :: rest =>
    if key < other then (key, change none) :: (other, value) :: rest
    else if key = other then (key, change (some value)) :: rest
    else (other, value) :: alterEntries key change rest

theorem mem_alterEntries {key : String} {change : Option α → α} {entries : List (String × α)}
    {entry : String × α} (h : entry ∈ alterEntries key change entries) :
    entry.1 = key ∨ entry ∈ entries := by
  induction entries with
  | nil => simp only [alterEntries, List.mem_singleton] at h; exact .inl (by rw [h])
  | cons head rest ih =>
    rw [alterEntries] at h
    split at h
    · rcases List.mem_cons.1 h with h | h
      · exact .inl (by rw [h])
      · exact .inr h
    · split at h
      · rcases List.mem_cons.1 h with h | h
        · exact .inl (by rw [h])
        · exact .inr (List.mem_cons_of_mem _ h)
      · rcases List.mem_cons.1 h with h | h
        · exact .inr (h ▸ List.mem_cons_self)
        · exact (ih h).imp id (List.mem_cons_of_mem _)

theorem pairwise_alterEntries {key : String} {change : Option α → α}
    {entries : List (String × α)} (increasing : entries.Pairwise fun a b => a.1 < b.1) :
    (alterEntries key change entries).Pairwise fun a b => a.1 < b.1 := by
  induction entries with
  | nil => exact List.pairwise_singleton _ _
  | cons head rest ih =>
    obtain ⟨above, increasing'⟩ := List.pairwise_cons.1 increasing
    rw [alterEntries]
    split
    · next lt =>
      refine List.pairwise_cons.2 ⟨fun entry mem => ?_, increasing⟩
      rcases List.mem_cons.1 mem with h | h
      · exact h ▸ lt
      · exact String.lt_trans lt (above entry h)
    · next nlt =>
      split
      · next eq =>
        exact List.pairwise_cons.2 ⟨fun entry mem => eq ▸ above entry mem, increasing'⟩
      · next ne =>
        refine List.pairwise_cons.2 ⟨fun entry mem => ?_, ih increasing'⟩
        rcases mem_alterEntries mem with h | h
        · refine h ▸ Decidable.byContradiction fun h' => ne ?_
          exact (String.le_antisymm (String.not_lt.1 nlt) (String.not_lt.1 h')).symm
        · exact above entry h

def alter (map : SortedMap α) (key : String) (change : Option α → α) : SortedMap α :=
  ⟨alterEntries key change map.entries, pairwise_alterEntries map.increasing⟩

def insert (map : SortedMap α) (key : String) (value : α) : SortedMap α :=
  map.alter key fun _ => value

/-- The map of the given entries; of several with one key the last counts. -/
def ofList (entries : List (String × α)) : SortedMap α :=
  entries.foldl (fun map entry => map.insert entry.1 entry.2) empty

end SortedMap

end CopyrightHeader

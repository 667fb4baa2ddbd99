import CopyrightHeader.Proofs.NameOrder
import CopyrightHeader.SortedMap
import Mathlib.Data.List.Nodup
import Mathlib.Data.List.Perm.Basic

/-! Entries with keys, kept in order or gone through one by one.

A map holds its entries by increasing key, so the first entry that a search finds is the one whose
key has the least bytes, and a map of entries with different keys does not show how these were
written. A list whose entries are turned into results one by one gives a result for each of them or
the error of the first that has none.
-/

set_option autoImplicit false

namespace CopyrightHeader

section Traversal

variable {α β ε : Type} {step : α → Except ε β}

theorem bind_eq_ok_iff {first : Except ε α} {result : β} :
    (first >>= step) = .ok result ↔ ∃ value, first = .ok value ∧ step value = .ok result := by
  cases first with
  | error error =>
    constructor
    · intro same
      cases same
    · rintro ⟨value, same, -⟩
      cases same
  | ok value =>
    constructor
    · intro same
      exact ⟨value, rfl, same⟩
    · rintro ⟨other, same, rest⟩
      cases same
      exact rest

theorem mapM_eq_ok_iff {entries : List α} {results : List β} :
    entries.mapM step = .ok results ↔
      List.Forall₂ (fun entry result => step entry = .ok result) entries results := by
  induction entries generalizing results with
  | nil =>
    rw [List.forall₂_nil_left_iff, List.mapM_nil]
    exact ⟨fun done => (Except.ok.inj done).symm, fun empty => empty ▸ rfl⟩
  | cons entry entries ih =>
    rw [List.mapM_cons, bind_eq_ok_iff]
    constructor
    · rintro ⟨result, made, done⟩
      obtain ⟨others, madeOthers, done⟩ := bind_eq_ok_iff.1 done
      cases done
      exact .cons made (ih.1 madeOthers)
    · intro all
      cases all with
      | cons made others => exact ⟨_, made, bind_eq_ok_iff.2 ⟨_, ih.2 others, rfl⟩⟩

theorem exists_of_mapM_eq_ok {entries : List α} {results : List β}
    (done : entries.mapM step = .ok results) {entry : α} (mem : entry ∈ entries) :
    ∃ result, step entry = .ok result := by
  induction mapM_eq_ok_iff.1 done with
  | nil => exact absurd mem List.not_mem_nil
  | cons made others ih =>
    rcases List.mem_cons.1 mem with rfl | mem
    · exact ⟨_, made⟩
    · exact ih (mapM_eq_ok_iff.2 others) mem

theorem exists_entry_of_mapM_eq_ok {entries : List α} {results : List β}
    (done : entries.mapM step = .ok results) {result : β} (mem : result ∈ results) :
    ∃ entry ∈ entries, step entry = .ok result := by
  induction mapM_eq_ok_iff.1 done with
  | nil => exact absurd mem List.not_mem_nil
  | cons made others ih =>
    rcases List.mem_cons.1 mem with rfl | mem
    · exact ⟨_, List.mem_cons_self, made⟩
    · obtain ⟨entry, isEntry, made⟩ := ih (mapM_eq_ok_iff.2 others) mem
      exact ⟨entry, List.mem_cons_of_mem _ isEntry, made⟩

theorem mapM_eq_error_iff {entries : List α} {error : ε} :
    entries.mapM step = .error error ↔
      ∃ front entry back, entries = front ++ entry :: back ∧
        (∀ earlier ∈ front, ∃ result, step earlier = .ok result) ∧ step entry = .error error := by
  induction entries with
  | nil =>
    constructor
    · intro fails
      cases fails
    · rintro ⟨front, entry, back, same, -⟩
      exact absurd same.symm (List.append_ne_nil_of_right_ne_nil _ (List.cons_ne_nil _ _))
  | cons head entries ih =>
    rw [List.mapM_cons]
    constructor
    · intro fails
      cases made : step head with
      | error fault =>
        rw [made] at fails
        cases fails
        exact ⟨[], head, entries, rfl, fun _ mem => absurd mem List.not_mem_nil, made⟩
      | ok result =>
        cases others : entries.mapM step with
        | ok results => rw [made, others] at fails; cases fails
        | error fault =>
          rw [made, others] at fails
          cases fails
          obtain ⟨front, entry, back, rfl, succeed, fails⟩ := ih.1 others
          exact ⟨head :: front, entry, back, rfl, List.forall_mem_cons.2 ⟨⟨result, made⟩, succeed⟩,
            fails⟩
    · rintro ⟨front, entry, back, same, succeed, fails⟩
      cases front with
      | nil =>
        cases same
        rw [fails]
        rfl
      | cons first front =>
        cases same
        obtain ⟨⟨result, made⟩, succeed⟩ := List.forall_mem_cons.1 succeed
        rw [made, ih.2 ⟨front, entry, back, rfl, succeed, fails⟩]
        rfl

theorem keys_eq_of_forall₂ {relation : String × α → String × β → Prop}
    (keys : ∀ entry result, relation entry result → entry.1 = result.1)
    {entries : List (String × α)} {results : List (String × β)}
    (all : List.Forall₂ relation entries results) : entries.map (·.1) = results.map (·.1) := by
  induction all with
  | nil => rfl
  | cons head _ ih => rw [List.map_cons, List.map_cons, keys _ _ head, ih]

end Traversal

namespace SortedMap

variable {α : Type} {map other : SortedMap α} {asks : String → Prop} {key : String} {value : α}

/-- Of the keys that are asked for, `key` is the one with the least bytes, and it has `value`. -/
structure Least (map : SortedMap α) (asks : String → Prop) (key : String) (value : α) : Prop where
  mem : (key, value) ∈ map.entries
  asked : asks key
  least : ∀ other ∈ map.keys, asks other → other ≠ key →
    key.toUTF8.data.toList < other.toUTF8.data.toList

theorem mem_keys_of_mem (mem : (key, value) ∈ map.entries) : key ∈ map.keys :=
  List.mem_map.2 ⟨_, mem, rfl⟩

theorem least_of_first {front back : List (String × α)}
    (entries : map.entries = front ++ (key, value) :: back) (asked : asks key)
    (first : ∀ earlier ∈ front, ¬ asks earlier.1) : map.Least asks key value := by
  refine ⟨entries ▸ List.mem_append_right _ List.mem_cons_self, asked, ?_⟩
  intro other isKey asked differs
  obtain ⟨entry, mem, rfl⟩ := List.mem_map.1 isKey
  rw [entries] at mem
  rcases List.mem_append.1 mem with mem | mem
  · exact absurd asked (first entry mem)
  · rcases List.mem_cons.1 mem with rfl | mem
    · exact absurd rfl differs
    · have increasing := entries ▸ map.increasing
      exact utf8_lt ((List.pairwise_cons.1 (List.pairwise_append.1 increasing).2.1).1 entry mem)

theorem Least.exists_first (least : map.Least asks key value) :
    ∃ front back, map.entries = front ++ (key, value) :: back ∧
      ∀ earlier ∈ front, ¬ asks earlier.1 := by
  obtain ⟨front, back, entries⟩ := List.append_of_mem least.mem
  refine ⟨front, back, entries, fun earlier mem asked => ?_⟩
  -- A key in front is less, so if it were asked for, the least one would be less than itself.
  have increasing := entries ▸ map.increasing
  have before : earlier.1 < key :=
    (List.pairwise_append.1 increasing).2.2 earlier mem (key, value) List.mem_cons_self
  have isKey : earlier.1 ∈ map.keys :=
    List.mem_map.2 ⟨earlier, entries ▸ List.mem_append_left _ mem, rfl⟩
  refine List.lt_asymm (utf8_lt before) (least.least _ isKey asked fun same => ?_)
  exact String.lt_irrefl key (same ▸ before)

/-- The first entry that a search finds has the least key. -/
theorem find?_eq_some_iff {test : String → Bool} (tests : ∀ key, test key = true ↔ asks key) :
    map.entries.find? (fun entry => test entry.1) = some (key, value) ↔
      map.Least asks key value := by
  rw [List.find?_eq_some_iff_append]
  constructor
  · rintro ⟨found, front, back, entries, passed⟩
    refine least_of_first entries ((tests key).1 found) fun earlier mem asked => ?_
    simpa [(tests _).2 asked] using passed earlier mem
  · intro least
    obtain ⟨front, back, entries, passed⟩ := least.exists_first
    refine ⟨(tests key).2 least.asked, front, back, entries, fun earlier mem => ?_⟩
    simpa [← tests] using passed earlier mem

theorem find?_eq_none_iff {test : String → Bool} (tests : ∀ key, test key = true ↔ asks key) :
    map.entries.find? (fun entry => test entry.1) = none ↔ ∀ key ∈ map.keys, ¬ asks key := by
  rw [List.find?_eq_none, keys, List.forall_mem_map]
  exact forall₂_congr fun entry _ => not_congr (tests entry.1)

/-- The first entry that a search makes something of has the least key of all such entries. -/
theorem findSome?_eq_some_iff {β : Type} {make : String × α → Option β} {result : β}
    (makes : ∀ entry ∈ map.entries, asks entry.1 ↔ make entry ≠ none) :
    map.entries.findSome? make = some result ↔
      ∃ key value, map.Least asks key value ∧ make (key, value) = some result := by
  rw [List.findSome?_eq_some_iff]
  constructor
  · rintro ⟨front, ⟨key, value⟩, back, entries, made, passed⟩
    have isEntry : (key, value) ∈ map.entries :=
      entries ▸ List.mem_append_right _ List.mem_cons_self
    have asked : asks key := (makes _ isEntry).2 (by simp [made])
    refine ⟨key, value, least_of_first entries asked fun earlier mem asked => ?_, made⟩
    have isEntry : earlier ∈ map.entries := entries ▸ List.mem_append_left _ mem
    exact (makes earlier isEntry).1 asked (passed earlier mem)
  · rintro ⟨key, value, least, made⟩
    obtain ⟨front, back, entries, passed⟩ := least.exists_first
    refine ⟨front, (key, value), back, entries, made, fun earlier mem => ?_⟩
    have isEntry : earlier ∈ map.entries := entries ▸ List.mem_append_left _ mem
    exact not_not.1 (mt (makes earlier isEntry).2 (passed earlier mem))

theorem nodup_keys (map : SortedMap α) : map.keys.Nodup :=
  List.pairwise_map.2 (map.increasing.imp String.ne_of_lt)

theorem nodup_entries (map : SortedMap α) : map.entries.Nodup := List.Nodup.of_map _ map.nodup_keys

theorem ext_mem (same : ∀ entry, entry ∈ map.entries ↔ entry ∈ other.entries) : map = other := by
  have perm := (List.perm_ext_iff_of_nodup map.nodup_entries other.nodup_entries).2 same
  have equal : map.entries = other.entries := perm.eq_of_pairwise
    (fun _ _ _ _ less more => absurd more (String.lt_asymm less)) map.increasing other.increasing
  obtain ⟨entries, increasing⟩ := map
  obtain ⟨others, increasing'⟩ := other
  cases equal
  rfl

theorem mem_alterEntries_iff {change : Option α → α} {entries : List (String × α)}
    (fresh : ∀ entry ∈ entries, entry.1 ≠ key) {entry : String × α} :
    entry ∈ alterEntries key change entries ↔ entry = (key, change none) ∨ entry ∈ entries := by
  induction entries with
  | nil => rw [alterEntries, List.mem_singleton, or_iff_left List.not_mem_nil]
  | cons head rest ih =>
    obtain ⟨differs, fresh⟩ := List.forall_mem_cons.1 fresh
    rw [alterEntries]
    split
    · exact List.mem_cons
    · rw [if_neg (Ne.symm differs), List.mem_cons, ih fresh, List.mem_cons]
      exact or_left_comm

theorem mem_foldl_insert {entries : List (String × α)} (once : (entries.map (·.1)).Nodup)
    (fresh : ∀ entry ∈ map.entries, ∀ added ∈ entries, entry.1 ≠ added.1) {entry : String × α} :
    entry ∈ (entries.foldl (fun map entry => map.insert entry.1 entry.2) map).entries ↔
      entry ∈ map.entries ∨ entry ∈ entries := by
  induction entries generalizing map with
  | nil => exact (or_iff_left List.not_mem_nil).symm
  | cons head rest ih =>
    obtain ⟨new, once⟩ := List.nodup_cons.1 once
    have inserted {entry : String × α} :
        entry ∈ (map.insert head.1 head.2).entries ↔ entry = head ∨ entry ∈ map.entries :=
      mem_alterEntries_iff fun entry mem => fresh entry mem head List.mem_cons_self
    rw [List.foldl_cons, ih once, inserted, List.mem_cons, or_assoc, or_left_comm]
    intro entry mem added memRest same
    rcases inserted.1 mem with rfl | mem
    · exact new (List.mem_map.2 ⟨added, memRest, same.symm⟩)
    · exact fresh entry mem added (List.mem_cons_of_mem _ memRest) same

theorem mem_ofList {entries : List (String × α)} (once : (entries.map (·.1)).Nodup)
    {entry : String × α} : entry ∈ (ofList entries).entries ↔ entry ∈ entries := by
  rw [ofList, mem_foldl_insert once fun _ mem => absurd mem List.not_mem_nil]
  exact or_iff_right List.not_mem_nil

/-- In what order entries with different keys are written does not show in their map. -/
theorem ofList_perm {entries others : List (String × α)} (same : entries.Perm others)
    (once : (entries.map (·.1)).Nodup) : ofList entries = ofList others :=
  ext_mem fun entry => by
    rw [mem_ofList once, mem_ofList ((same.map _).nodup_iff.1 once), same.mem_iff]

end SortedMap

end CopyrightHeader

import CopyrightHeader.Config.Decode
import CopyrightHeader.Proofs.KeyedEntries
import CopyrightHeader.Proofs.TomlKeys

/-! Configurations that are written in another order.

Each entry at the top of a document sets a field of the configuration, no two of them the same one,
and the styles of a section end up in a map. The main statement: documents that hold the same
sections with the same entries, in whatever order, denote the same configuration.
-/

set_option autoImplicit false

namespace CopyrightHeader

namespace Toml

/-- Two tables with the same entries, in whatever order and however they came about, or one value
twice. -/
inductive Value.Reordered : Value → Value → Prop where
  | refl (value : Value) : Reordered value value
  | table {origin other : Origin} {entries others : List (String × Value)}
    (same : entries.Perm others) : Reordered (.table origin entries) (.table other others)

/-- The same keys with the same entries below them, in whatever order. -/
def Table.Reordered (table other : Table) : Prop :=
  ∃ middle, List.Forall₂ (fun entry entry' => entry.1 = entry'.1 ∧ entry.2.Reordered entry'.2)
    table middle ∧ middle.Perm other

theorem Value.Reordered.symm {value other : Value} (same : value.Reordered other) :
    other.Reordered value := by
  cases same with
  | refl => exact .refl _
  | table same => exact .table same.symm

theorem Table.Reordered.symm {table other : Table} (same : table.Reordered other) :
    other.Reordered table := by
  obtain ⟨middle, alike, perm⟩ := same
  obtain ⟨middle', alike', perm'⟩ := List.perm_comp_forall₂ perm.symm alike.flip
  exact ⟨middle', alike'.imp fun _ _ alike => ⟨alike.1.symm, alike.2.symm⟩, perm'⟩

end Toml

namespace Config

open Toml (Value Table)

/-- A style and the framing that it is decoded to, both under one key. -/
def Frames (entry : String × Value) (result : String × Framing) : Prop :=
  entry.1 = result.1 ∧ decodeFraming entry.1 entry.2 = .ok result.2

theorem decodeFramings_eq_ok_iff {key : String} {origin : Toml.Origin} {entries : Table}
    {framings : SortedMap Framing} : decodeFramings key (.table origin entries) = .ok framings ↔
      ∃ results, List.Forall₂ Frames entries results ∧ SortedMap.ofList results = framings := by
  simp only [decodeFramings, bind_eq_ok_iff, mapM_eq_ok_iff, Except.ok.injEq]
  refine exists_congr fun results => and_congr_left fun _ => ?_
  refine ⟨List.Forall₂.imp fun entry result => ?_, List.Forall₂.imp fun entry result => ?_⟩
  · rintro ⟨framing, read, rfl⟩
    exact ⟨rfl, read⟩
  · rintro ⟨same, read⟩
    exact ⟨result.2, read, Prod.ext same rfl⟩

theorem decodeFramings_reordered {key : String} {value other : Value} {framings : SortedMap Framing}
    (keyed : value.Keyed) (same : value.Reordered other)
    (decoded : decodeFramings key value = .ok framings) : decodeFramings key other = .ok framings := by
  cases same with
  | refl => exact decoded
  | table same =>
    -- The framings are reordered together with the entries that they come from.
    obtain ⟨results, framed, rfl⟩ := decodeFramings_eq_ok_iff.1 decoded
    obtain ⟨others, framed', same'⟩ := List.perm_comp_forall₂ same.symm framed
    have keys := keys_eq_of_forall₂ (fun _ _ frames => frames.1) framed'
    have once := keys ▸ (same.map _).nodup_iff.1 (Table.Keyed.of_value keyed).once
    exact decodeFramings_eq_ok_iff.2 ⟨others, framed', SortedMap.ofList_perm same' once⟩

theorem decodeStrings_reordered {key : String} {value other : Value} {lines : List String}
    (same : value.Reordered other) (decoded : decodeStrings key value = .ok lines) :
    decodeStrings key other = .ok lines := by
  cases same with
  | refl => exact decoded
  | table => cases decoded

/-- What an entry at the top of a document does to a configuration: it sets one field. -/
inductive Sets : String × Value → (Config → Config) → Prop where
  | notice {value : Value} {lines : List String} (read : decodeStrings "notice" value = .ok lines) :
    Sets ("notice", value) fun config => { config with noticeLines := some lines }
  | exclude {value : Value} {entries : List String}
    (read : decodeStrings "exclude" value = .ok entries) :
    Sets ("exclude", value) fun config => { config with exclude := some entries }
  | extensions {value : Value} {framings : SortedMap Framing}
    (read : decodeFramings "comment-styles" value = .ok framings) :
    Sets ("comment-styles", value) fun config => { config with extensions := framings }
  | fileNames {value : Value} {framings : SortedMap Framing}
    (read : decodeFramings "filenames" value = .ok framings) :
    Sets ("filenames", value) fun config => { config with fileNames := framings }

theorem decodeEntry_eq_ok_iff {config next : Config} {entry : String × Value} :
    decodeEntry config entry = .ok next ↔ ∃ change, Sets entry change ∧ change config = next := by
  constructor
  · intro decoded
    unfold decodeEntry at decoded
    split at decoded
    · obtain ⟨lines, read, done⟩ := bind_eq_ok_iff.1 decoded
      exact ⟨_, .notice read, Except.ok.inj done⟩
    · obtain ⟨entries, read, done⟩ := bind_eq_ok_iff.1 decoded
      exact ⟨_, .exclude read, Except.ok.inj done⟩
    · obtain ⟨framings, read, done⟩ := bind_eq_ok_iff.1 decoded
      exact ⟨_, .extensions read, Except.ok.inj done⟩
    · obtain ⟨framings, read, done⟩ := bind_eq_ok_iff.1 decoded
      exact ⟨_, .fileNames read, Except.ok.inj done⟩
    · cases decoded
  · rintro ⟨change, sets, rfl⟩
    cases sets with
    | notice read => exact bind_eq_ok_iff.2 ⟨_, read, rfl⟩
    | exclude read => exact bind_eq_ok_iff.2 ⟨_, read, rfl⟩
    | extensions read => exact bind_eq_ok_iff.2 ⟨_, read, rfl⟩
    | fileNames read => exact bind_eq_ok_iff.2 ⟨_, read, rfl⟩

theorem Sets.comm {entry other : String × Value} {change change' : Config → Config}
    (first : Sets entry change) (second : Sets other change') (differs : entry.1 ≠ other.1)
    (config : Config) : change (change' config) = change' (change config) := by
  cases first <;> cases second <;> first | rfl | exact absurd rfl differs

theorem Sets.reordered {key : String} {value other : Value} {change : Config → Config}
    (sets : Sets (key, value) change) (keyed : value.Keyed) (same : value.Reordered other) :
    Sets (key, other) change := by
  cases sets with
  | notice read => exact .notice (decodeStrings_reordered same read)
  | exclude read => exact .exclude (decodeStrings_reordered same read)
  | extensions read => exact .extensions (decodeFramings_reordered keyed same read)
  | fileNames read => exact .fileNames (decodeFramings_reordered keyed same read)

theorem foldlM_decodeEntry_perm {table other : Table} (same : table.Perm other)
    (once : (table.map (·.1)).Nodup) {config result : Config}
    (decoded : table.foldlM decodeEntry config = .ok result) :
    other.foldlM decodeEntry config = .ok result := by
  induction same generalizing config with
  | nil => exact decoded
  | cons entry _ ih =>
    rw [List.foldlM_cons] at decoded ⊢
    obtain ⟨next, first, rest⟩ := bind_eq_ok_iff.1 decoded
    exact bind_eq_ok_iff.2 ⟨next, first, ih (List.nodup_cons.1 once).2 rest⟩
  | swap entry first rest =>
    simp only [List.foldlM_cons, bind_eq_ok_iff, decodeEntry_eq_ok_iff] at decoded ⊢
    obtain ⟨_, ⟨change, sets, rfl⟩, _, ⟨change', sets', rfl⟩, others⟩ := decoded
    -- Only here do the keys have to differ: two values for one field would hide each other.
    have differs : first.1 ≠ entry.1 := fun same => (List.nodup_cons.1 once).1 (by simp [same])
    rw [← sets.comm sets' differs config] at others
    exact ⟨_, ⟨change', sets', rfl⟩, _, ⟨change, sets, rfl⟩, others⟩
  | trans same same' ih ih' => exact ih' ((same.map _).nodup_iff.1 once) (ih once decoded)

theorem foldlM_decodeEntry_alike {table other : Table}
    (alike : List.Forall₂ (fun entry entry' => entry.1 = entry'.1 ∧ entry.2.Reordered entry'.2)
      table other)
    (keyed : ∀ entry ∈ table, entry.2.Keyed) {config result : Config}
    (decoded : table.foldlM decodeEntry config = .ok result) :
    other.foldlM decodeEntry config = .ok result := by
  induction alike generalizing config with
  | nil => exact decoded
  | @cons entry entry' table other head alike ih =>
    obtain ⟨key, value⟩ := entry
    obtain ⟨key', value'⟩ := entry'
    obtain ⟨rfl, same⟩ := head
    obtain ⟨keyedHead, keyed⟩ := List.forall_mem_cons.1 keyed
    rw [List.foldlM_cons, bind_eq_ok_iff] at decoded ⊢
    obtain ⟨next, first, rest⟩ := decoded
    obtain ⟨change, sets, made⟩ := decodeEntry_eq_ok_iff.1 first
    exact ⟨next, decodeEntry_eq_ok_iff.2 ⟨change, sets.reordered keyedHead same, made⟩, ih keyed rest⟩

theorem foldlM_decodeEntry_reordered {table other : Table} (keyed : table.Keyed)
    (same : table.Reordered other) {config result : Config}
    (decoded : table.foldlM decodeEntry config = .ok result) :
    other.foldlM decodeEntry config = .ok result := by
  obtain ⟨middle, alike, perm⟩ := same
  have keys := keys_eq_of_forall₂ (fun _ _ same => same.1) alike
  have once := keys ▸ keyed.once
  exact foldlM_decodeEntry_perm perm once (foldlM_decodeEntry_alike alike keyed.inner decoded)

/-- The order in which the sections and their entries are written does not show in the
configuration. -/
theorem parse_reordered {text text' : String} {table table' : Table} {config : Config}
    (parsed : Toml.parse text = .ok table) (parsed' : Toml.parse text' = .ok table')
    (same : table.Reordered table') (decoded : parse text = .ok config) :
    parse text' = .ok config := by
  unfold parse at decoded ⊢
  rw [parsed] at decoded
  rw [parsed']
  exact foldlM_decodeEntry_reordered (Toml.keyed_of_parse parsed) same decoded

end Config

end CopyrightHeader

import CopyrightHeader.Toml.Document

/-! Keys of a TOML document.

A table grows by one key at a time, and only where the key has no value yet or where what it holds
may be changed in place. The main statement: in what a document denotes no table holds a key twice.
-/

set_option autoImplicit false

namespace CopyrightHeader.Toml

/-- No table in a value holds a key twice. -/
inductive Value.Keyed : Value → Prop where
  | string (text : String) : Keyed (.string text)
  | integer (base : Nat) (digits : List Char) : Keyed (.integer base digits)
  | float (value : FloatText) : Keyed (.float value)
  | boolean (value : Bool) : Keyed (.boolean value)
  | dateTime (text : String) : Keyed (.dateTime text)
  | array {items : List Value} (inner : ∀ item ∈ items, Keyed item) : Keyed (.array items)
  | tables {elements : List Value} (inner : ∀ element ∈ elements, Keyed element) :
    Keyed (.tables elements)
  | table {origin : Origin} {entries : List (String × Value)} (once : (entries.map (·.1)).Nodup)
    (inner : ∀ entry ∈ entries, Keyed entry.2) : Keyed (.table origin entries)

namespace Table

/-- No key stands twice in a table, nor in one inside it. -/
structure Keyed (table : Table) : Prop where
  once : (table.map (·.1)).Nodup
  inner : ∀ entry ∈ table, entry.2.Keyed

theorem Keyed.nil : Keyed [] := ⟨List.nodup_nil, fun _ mem => absurd mem List.not_mem_nil⟩

theorem Keyed.value {table : Table} (keyed : table.Keyed) (origin : Origin) :
    (Value.table origin table).Keyed :=
  .table keyed.once keyed.inner

theorem Keyed.of_value {origin : Origin} {table : Table} (keyed : (Value.table origin table).Keyed) :
    table.Keyed := by
  cases keyed with
  | table once inner => exact ⟨once, inner⟩

theorem Keyed.of_lookup {table : Table} {key : String} {value : Value} (keyed : table.Keyed)
    (found : table.lookup key = some value) : value.Keyed := by
  obtain ⟨front, back, rfl, -⟩ := List.lookup_eq_some_iff.1 found
  exact keyed.inner (key, value) (List.mem_append_right _ List.mem_cons_self)

theorem mem_set {key : String} {value : Value} {table : Table} {entry : String × Value}
    (mem : entry ∈ set key value table) : entry = (key, value) ∨ entry ∈ table := by
  induction table with
  | nil => exact .inl (List.mem_singleton.1 mem)
  | cons head rest ih =>
    obtain ⟨other, old⟩ := head
    rw [set] at mem
    split at mem
    · exact (List.mem_cons.1 mem).imp id (List.mem_cons_of_mem _)
    · rcases List.mem_cons.1 mem with rfl | mem
      · exact .inr List.mem_cons_self
      · exact (ih mem).imp id (List.mem_cons_of_mem _)

theorem nodup_keys_set {key : String} {value : Value} {table : Table}
    (once : (table.map (·.1)).Nodup) : ((set key value table).map (·.1)).Nodup := by
  induction table with
  | nil => exact List.nodup_cons.2 ⟨List.not_mem_nil, List.nodup_nil⟩
  | cons head rest ih =>
    obtain ⟨other, old⟩ := head
    obtain ⟨fresh, once'⟩ := List.nodup_cons.1 once
    rw [set]
    split
    · next same => exact same ▸ once
    · next differs =>
      refine List.nodup_cons.2 ⟨fun mem => ?_, ih once'⟩
      obtain ⟨entry, mem, same⟩ := List.mem_map.1 mem
      rcases mem_set mem with rfl | mem
      · exact differs same.symm
      · exact fresh (List.mem_map.2 ⟨entry, mem, same⟩)

theorem Keyed.set {table : Table} {value : Value} (keyed : table.Keyed) (key : String)
    (fits : value.Keyed) : (table.set key value).Keyed := by
  refine ⟨nodup_keys_set keyed.once, fun entry mem => ?_⟩
  rcases mem_set mem with rfl | mem
  · exact fits
  · exact keyed.inner entry mem

/-- What a change of a key's value needs so that no table gets a key twice. -/
def KeepsValue (change : Option Value → Option Value) : Prop :=
  ∀ {found : Option Value} {value : Value}, (∀ old, found = some old → old.Keyed) →
    change found = some value → value.Keyed

/-- What a change of a table needs so that no table gets a key twice. -/
def KeepsTable (change : Table → Option Table) : Prop :=
  ∀ {table result : Table}, table.Keyed → change table = some result → result.Keyed

theorem keepsTable_update {change : Option Value → Option Value} (keeps : KeepsValue change)
    (key : String) : KeepsTable (update key change) := by
  intro table result keyed changed
  rw [update] at changed
  obtain ⟨value, allowed, rfl⟩ := Option.map_eq_some_iff.1 changed
  exact keyed.set key (keeps (fun _ found => keyed.of_lookup found) allowed)

theorem keyed_of_changeTable {change : Table → Option Table} (keeps : KeepsTable change)
    {value result : Value} (keyed : value.Keyed) (changed : changeTable change value = some result) :
    result.Keyed := by
  unfold Table.changeTable at changed
  split at changed
  · cases changed
  · obtain ⟨table, allowed, rfl⟩ := Option.map_eq_some_iff.1 changed
    exact (keeps (.of_value keyed) allowed).value _
  · next elements =>
    split at changed
    · next origin inner last =>
      obtain ⟨table, allowed, rfl⟩ := Option.map_eq_some_iff.1 changed
      cases keyed with
      | tables keyed =>
        have keyedLast := keyed _ (List.mem_of_getLast? last)
        refine .tables fun element mem => ?_
        rcases List.mem_append.1 mem with mem | mem
        · exact keyed element (List.dropLast_subset _ mem)
        · exact List.mem_singleton.1 mem ▸ (keeps (.of_value keyedLast) allowed).value _
    · cases changed
  · cases changed

theorem keepsTable_add {value : Value} (fits : value.Keyed) (path : List String) :
    KeepsTable (add value path) := by
  -- The table below the first key, new or found there, grows by the rest of the path.
  induction path with
  | nil => exact fun _ changed => by cases changed
  | cons key path ih =>
    cases path with
    | nil =>
      refine keepsTable_update (fun _ changed => ?_) key
      split at changed
      · exact Option.some.inj changed ▸ fits
      · cases changed
    | cons next path =>
      refine keepsTable_update (fun keyed changed => ?_) key
      split at changed
      · obtain ⟨inner, added, rfl⟩ := Option.map_eq_some_iff.1 changed
        exact (ih .nil added).value _
      · split at changed
        · obtain ⟨inner, added, rfl⟩ := Option.map_eq_some_iff.1 changed
          exact (ih (.of_value (keyed _ rfl)) added).value _
        · cases changed
      · split at changed
        · exact keyed_of_changeTable ih (keyed _ rfl) changed
        · cases changed
      · cases changed

theorem keepsTable_under {change : Option Value → Option Value} (keeps : KeepsValue change)
    (path : List String) : KeepsTable (under change path) := by
  induction path with
  | nil => exact fun _ changed => by cases changed
  | cons key path ih =>
    cases path with
    | nil => exact keepsTable_update keeps key
    | cons next path =>
      refine keepsTable_update (fun keyed changed => ?_) key
      split at changed
      · obtain ⟨inner, made, rfl⟩ := Option.map_eq_some_iff.1 changed
        exact (ih .nil made).value _
      · exact keyed_of_changeTable ih (keyed _ rfl) changed

theorem keepsTable_openTable (path : List String) : KeepsTable (openTable path) := by
  refine keepsTable_under (fun keyed changed => ?_) path
  split at changed
  · exact Option.some.inj changed ▸ Keyed.nil.value _
  · exact Option.some.inj changed ▸ (Keyed.of_value (keyed _ rfl)).value _
  · cases changed

theorem keepsTable_openElement (path : List String) : KeepsTable (openElement path) := by
  refine keepsTable_under (fun keyed changed => ?_) path
  split at changed
  · refine Option.some.inj changed ▸ .tables fun element mem => ?_
    exact List.mem_singleton.1 mem ▸ Keyed.nil.value _
  · next elements =>
    cases keyed _ rfl with
    | tables keyed =>
      refine Option.some.inj changed ▸ .tables fun element mem => ?_
      rcases List.mem_append.1 mem with mem | mem
      · exact keyed element mem
      · exact List.mem_singleton.1 mem ▸ Keyed.nil.value _
  · cases changed

theorem keepsTable_addUnder {value : Value} (fits : value.Keyed) (header key : List String) :
    KeepsTable (addUnder header key value) := by
  cases header with
  | nil => exact keepsTable_add fits key
  | cons name header =>
    refine keepsTable_under (fun keyed changed => ?_) (name :: header)
    obtain ⟨old, rfl, changed⟩ := Option.bind_eq_some_iff.1 changed
    exact keyed_of_changeTable (keepsTable_add fits key) (keyed old rfl) changed

end Table

theorem keyed_of_radixInteger {base : Nat} {digits : List Char} {value : Value}
    (read : radixInteger base digits = some value) : value.Keyed := by
  unfold radixInteger at read
  split at read
  · exact Option.some.inj read ▸ .integer _ _
  · cases read

theorem keyed_of_decimal {word unsigned : List Char} {value : Value}
    (read : decimal word unsigned = some value) : value.Keyed := by
  unfold decimal at read
  repeat' split at read
  case h_1.isFalse => exact Option.some.inj read ▸ .integer _ _
  case h_2.isTrue.isTrue => exact Option.some.inj read ▸ .dateTime _
  case h_2.isFalse.isTrue.isFalse =>
    obtain ⟨number, -, rfl⟩ := Option.map_eq_some_iff.1 read
    exact .float number
  case h_2.isFalse.isFalse.isTrue => exact Option.some.inj read ▸ .integer _ _
  all_goals cases read

theorem keyed_of_wordValue {word : List Char} {value : Value} (read : wordValue word = some value) :
    value.Keyed := by
  unfold wordValue at read
  split at read
  · exact Option.some.inj read ▸ .boolean _
  split at read
  · exact Option.some.inj read ▸ .boolean _
  split at read
  · exact Option.some.inj read ▸ .float _
  split at read
  · exact Option.some.inj read ▸ .float _
  split at read
  · exact keyed_of_radixInteger read
  · exact keyed_of_radixInteger read
  · exact keyed_of_radixInteger read
  · exact keyed_of_decimal read

theorem keyed_of_scalar {text rest : List Char} {value : Value}
    (read : scalar text = some (value, rest)) : value.Keyed := by
  unfold scalar at read
  dsimp only at read
  repeat' split at read
  all_goals
    obtain ⟨word, isWord, same⟩ := Option.map_eq_some_iff.1 read
    cases same
    exact keyed_of_wordValue isWord

/-- In no value that the reader gives a table holds a key twice. -/
def GivesKeyed (item : Reader Value) : Prop :=
  ∀ {text rest : List Char} {value : Value}, item text = some (value, rest) → value.Keyed

theorem keyed_of_arrayItems {item : Reader Value} (gives : GivesKeyed item) {limit : Nat}
    {text rest : List Char} {values : List Value}
    (read : arrayItems item limit text = some (values, rest)) : ∀ value ∈ values, value.Keyed := by
  induction limit generalizing text values with
  | zero => cases read
  | succ limit ih =>
    rw [arrayItems] at read
    split at read
    · cases read
    · cases read
      exact fun _ mem => absurd mem List.not_mem_nil
    · split at read
      · cases read
      · next itemRead =>
        split at read
        · obtain ⟨⟨values, after⟩, others, same⟩ := Option.map_eq_some_iff.1 read
          cases same
          exact List.forall_mem_cons.2 ⟨gives itemRead, ih others⟩
        · cases read
          exact List.forall_mem_singleton.2 (gives itemRead)
        · cases read

theorem keyed_of_keyValue {skip : List Char → Option (List Char)} {item : Reader Value}
    (gives : GivesKeyed item) {text rest : List Char} {key : List String} {value : Value}
    (read : keyValue skip item text = some ((key, value), rest)) : value.Keyed := by
  unfold keyValue at read
  split at read
  · cases read
  split at read
  · split at read
    · obtain ⟨⟨value, after⟩, itemRead, same⟩ := Option.map_eq_some_iff.1 read
      cases same
      exact gives itemRead
    · cases read
  · cases read

theorem keyed_of_inlineEntries {item : Reader Value} (gives : GivesKeyed item) {limit : Nat}
    {table result : Table} {text rest : List Char} (keyed : table.Keyed)
    (read : inlineEntries item limit table text = some (result, rest)) : result.Keyed := by
  induction limit generalizing table text with
  | zero => cases read
  | succ limit ih =>
    rw [inlineEntries] at read
    split at read
    · cases read
    · cases read
      exact keyed
    · split at read
      · cases read
      · next entryRead =>
        have fits := keyed_of_keyValue gives entryRead
        split at read
        · next added _ => exact ih (Table.keepsTable_add fits _ keyed added) read
        · next added _ =>
          cases read
          exact Table.keepsTable_add fits _ keyed added
        · cases read

theorem givesKeyed_value (depth : Nat) : GivesKeyed (value depth) := by
  induction depth with
  | zero =>
    intro text rest value read
    unfold Toml.value at read
    split at read
    · cases read
      exact .string _
    · exact keyed_of_scalar read
  | succ depth ih =>
    intro text rest value read
    unfold Toml.value at read
    split at read
    · obtain ⟨⟨values, after⟩, itemsRead, same⟩ := Option.map_eq_some_iff.1 read
      cases same
      exact .array (keyed_of_arrayItems ih itemsRead)
    · obtain ⟨⟨table, after⟩, entriesRead, same⟩ := Option.map_eq_some_iff.1 read
      cases same
      exact (keyed_of_inlineEntries ih .nil entriesRead).value _
    · split at read
      · cases read
        exact .string _
      · exact keyed_of_scalar read

theorem keyed_of_expression {text rest : List Char} {key : List String} {value : Value}
    (read : expression text = some (.entry key value, rest)) : value.Keyed := by
  unfold expression at read
  split at read
  · split at read <;> cases read
  · obtain ⟨path, -, same⟩ := Option.map_eq_some_iff.1 read
    cases same
  · obtain ⟨⟨⟨key, value⟩, after⟩, entryRead, same⟩ := Option.map_eq_some_iff.1 read
    cases same
    exact keyed_of_keyValue (givesKeyed_value _) entryRead

theorem keyed_of_define {header : List String} {table result : Table} {text rest : List Char}
    {item : Expression} (read : expression text = some (item, rest)) (keyed : table.Keyed)
    (defined : table.define header item = some result) : result.Keyed := by
  cases item with
  | header path => exact Table.keepsTable_openTable path keyed defined
  | elementHeader path => exact Table.keepsTable_openElement path keyed defined
  | entry key value =>
    exact Table.keepsTable_addUnder (keyed_of_expression read) header key keyed defined

theorem keyed_of_expressions {document text : List Char} {limit : Nat} {header : List String}
    {table result : Table} (keyed : table.Keyed)
    (read : expressions document limit header table text = .ok result) : result.Keyed := by
  induction limit generalizing header table text with
  | zero => cases read
  | succ limit ih =>
    rw [expressions] at read
    split at read
    · cases read
    · cases read
      exact keyed
    · split at read
      · cases read
      · next itemRead =>
        split at read
        · split at read
          · cases read
          · next defined => exact ih (keyed_of_define itemRead keyed defined) read
        · cases read

/-- No table of a document holds a key twice. -/
theorem keyed_of_parse {document : String} {table : Table} (parsed : parse document = .ok table) :
    table.Keyed :=
  keyed_of_expressions .nil parsed

end CopyrightHeader.Toml

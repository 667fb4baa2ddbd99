import CopyrightHeader.Proofs.WritingOrder

/-! Which rule gives a file name its style.

The rules of a configuration stand in one list: those of file names by increasing key, those of
extensions likewise, the built-in ones last. The main statement says without the list which style a
name has, and which key a configuration fails at.
-/

set_option autoImplicit false

namespace CopyrightHeader

namespace Config

/-- A key of a file name with a wildcard stands for a pattern. -/
def IsPattern (key : String) : Prop :=
  '*' ∈ key.toList ∨ '?' ∈ key.toList ∨ '[' ∈ key.toList

/-- The key is meant as a pattern and denotes none. -/
def InvalidKey (key : String) (error : Glob.PatternError) : Prop :=
  IsPattern key ∧ Glob.Pattern.ofString key = .error error

/-- What names a key of a file name stands for. -/
inductive KeyMatches (key name : String) : Prop where
  | pattern {pattern : Glob.Pattern} (wild : IsPattern key)
    (denotes : Glob.Pattern.ofString key = .ok pattern) (accepts : pattern.accepts name)
  | exact (plain : ¬ IsPattern key) (same : name = key)

def HasExtension (name extension : String) : Prop := ∃ stem : String, name = stem ++ "." ++ extension

def IsCSource (name : String) : Prop :=
  HasExtension name "cpp" ∨ HasExtension name "c" ∨ HasExtension name "h"

def IsScript (name : String) : Prop := name = "BUILD" ∨ HasExtension name "py"

/-- The style of a name for which nothing is configured. -/
inductive BuiltIn (name : String) : Option CommentStyle → Prop where
  | c (source : IsCSource name) : BuiltIn name (some .c)
  | shell (script : IsScript name) : BuiltIn name (some .shell)
  | none (noSource : ¬ IsCSource name) (noScript : ¬ IsScript name) : BuiltIn name none

/-- The style that a configuration selects for a name. -/
inductive Selects (config : Config) (name : String) : Option CommentStyle → Prop where
  | fileName {key : String} {framing : Framing}
    (least : config.fileNames.Least (KeyMatches · name) key framing) :
    Selects config name (some (framing.toStyle (key ++ "-style")))
  | extension {key : String} {framing : Framing}
    (unnamed : ∀ key ∈ config.fileNames.keys, ¬ KeyMatches key name)
    (least : config.extensions.Least (HasExtension name) key framing) :
    Selects config name (some (framing.toStyle ("." ++ key ++ "-style")))
  | builtin {found : Option CommentStyle}
    (unnamed : ∀ key ∈ config.fileNames.keys, ¬ KeyMatches key name)
    (unextended : ∀ key ∈ config.extensions.keys, ¬ HasExtension name key)
    (builtin : BuiltIn name found) : Selects config name found

theorem isPattern_iff {key : String} :
    key.toList.any (fun c => c = '*' || c = '?' || c = '[') = true ↔ IsPattern key := by
  simp only [List.any_eq_true, Bool.or_eq_true, decide_eq_true_eq, IsPattern]
  constructor
  · rintro ⟨c, mem, (rfl | rfl) | rfl⟩
    · exact .inl mem
    · exact .inr (.inl mem)
    · exact .inr (.inr mem)
  · rintro (mem | mem | mem)
    · exact ⟨_, mem, .inl (.inl rfl)⟩
    · exact ⟨_, mem, .inl (.inr rfl)⟩
    · exact ⟨_, mem, .inr rfl⟩

/-- Whether a key of a file name matches a name; an invalid one matches none. -/
def keyAccepts (name key : String) : Bool :=
  match NameMatcher.ofFileName key with
  | .ok matcher => matcher.accepts name
  | .error _ => false

def extensionAccepts (name extension : String) : Bool :=
  (NameMatcher.suffix ("." ++ extension)).accepts name

theorem extensionAccepts_iff {name extension : String} :
    extensionAccepts name extension = true ↔ HasExtension name extension := by
  rw [extensionAccepts, NameMatcher.accepts, List.isSuffixOf_iff_suffix]
  constructor
  · rintro ⟨stem, same⟩
    refine ⟨String.ofList stem, String.toList_inj.1 ?_⟩
    rw [String.append_assoc, String.toList_append, String.toList_ofList, same]
  · rintro ⟨stem, rfl⟩
    refine ⟨stem.toList, ?_⟩
    rw [← String.toList_append, String.append_assoc]

theorem ofFileName_of_isPattern {key : String} (wild : IsPattern key) :
    NameMatcher.ofFileName key = (Glob.Pattern.ofString key).map .glob :=
  if_pos (isPattern_iff.2 wild)

theorem ofFileName_of_not_isPattern {key : String} (plain : ¬ IsPattern key) :
    NameMatcher.ofFileName key = .ok (.exact key) :=
  if_neg (mt isPattern_iff.1 plain)

theorem keyAccepts_iff {name key : String} : keyAccepts name key = true ↔ KeyMatches key name := by
  by_cases wild : IsPattern key
  · rw [keyAccepts, ofFileName_of_isPattern wild]
    cases denotes : Glob.Pattern.ofString key with
    | ok pattern =>
      refine ⟨fun accepts => .pattern wild denotes accepts, fun accepted => ?_⟩
      cases accepted with
      | pattern _ denotes' accepts =>
        cases denotes.symm.trans denotes'
        exact accepts
      | exact plain => exact absurd wild plain
    | error error =>
      refine ⟨nofun, fun accepted => ?_⟩
      cases accepted with
      | pattern _ denotes' => cases denotes.symm.trans denotes'
      | exact plain => exact absurd wild plain
  · rw [keyAccepts, ofFileName_of_not_isPattern wild]
    refine ⟨fun accepts => .exact wild (of_decide_eq_true accepts), fun accepted => ?_⟩
    cases accepted with
    | pattern wild' => exact absurd wild' wild
    | exact _ same => exact decide_eq_true same

theorem fileNameRule_eq_error_iff {entry : String × Framing} {error : ConfigError} :
    fileNameRule entry = .error error ↔
      ∃ fault, InvalidKey entry.1 fault ∧ error = .invalidPattern entry.1 fault := by
  by_cases wild : IsPattern entry.1
  · rw [fileNameRule, ofFileName_of_isPattern wild]
    cases denotes : Glob.Pattern.ofString entry.1 with
    | ok pattern =>
      refine ⟨nofun, fun ⟨fault, invalid, _⟩ => ?_⟩
      cases denotes.symm.trans invalid.2
    | error fault =>
      constructor
      · intro fails
        cases fails
        exact ⟨fault, ⟨wild, denotes⟩, rfl⟩
      · rintro ⟨fault', invalid, rfl⟩
        cases denotes.symm.trans invalid.2
        rfl
  · rw [fileNameRule, ofFileName_of_not_isPattern wild]
    refine ⟨nofun, fun ⟨fault, invalid, _⟩ => absurd invalid.1 wild⟩

theorem fileNameRule_eq_ok {entry : String × Framing} {rule : StyleRule}
    (made : fileNameRule entry = .ok rule) :
    (∀ name, rule.matcher.accepts name = keyAccepts name entry.1) ∧
      rule.style = entry.2.toStyle (entry.1 ++ "-style") := by
  unfold fileNameRule at made
  split at made
  · next matcher stands =>
    cases made
    exact ⟨fun name => by rw [keyAccepts, stands], rfl⟩
  · cases made

theorem styles_eq_ok {config : Config} {table : StyleTable} (made : config.styles = .ok table) :
    ∃ rules, config.fileNames.entries.mapM fileNameRule = .ok rules ∧
      table = ⟨rules ++ config.extensions.entries.map extensionRule ++ StyleTable.builtin.rules⟩ := by
  rw [styles] at made
  cases mapped : config.fileNames.entries.mapM fileNameRule with
  | error error => rw [mapped] at made; cases made
  | ok rules =>
    rw [mapped] at made
    cases made
    exact ⟨rules, rfl, rfl⟩

theorem styles_eq_error_iff_mapM {config : Config} {error : ConfigError} :
    config.styles = .error error ↔ config.fileNames.entries.mapM fileNameRule = .error error := by
  rw [styles]
  cases config.fileNames.entries.mapM fileNameRule with
  | error fault => simp only [Except.map, Except.error.injEq]
  | ok rules => exact ⟨nofun, nofun⟩

/-- A configuration fails at its least invalid key. -/
theorem styles_eq_error_iff {config : Config} {error : ConfigError} :
    config.styles = .error error ↔ ∃ key framing fault,
      config.fileNames.Least (fun key => ∃ fault, InvalidKey key fault) key framing ∧
        InvalidKey key fault ∧ error = .invalidPattern key fault := by
  rw [styles_eq_error_iff_mapM, mapM_eq_error_iff]
  constructor
  · rintro ⟨front, ⟨key, framing⟩, back, entries, succeed, fails⟩
    obtain ⟨fault, invalid, same⟩ := fileNameRule_eq_error_iff.1 fails
    refine ⟨key, framing, fault, SortedMap.least_of_first entries ⟨fault, invalid⟩ ?_, invalid, same⟩
    rintro earlier mem ⟨fault', invalid'⟩
    obtain ⟨rule, made⟩ := succeed earlier mem
    cases made.symm.trans (fileNameRule_eq_error_iff.2 ⟨fault', invalid', rfl⟩)
  · rintro ⟨key, framing, fault, least, invalid, same⟩
    obtain ⟨front, back, entries, valid⟩ := least.exists_first
    refine ⟨front, (key, framing), back, entries, fun earlier mem => ?_,
      fileNameRule_eq_error_iff.2 ⟨fault, invalid, same⟩⟩
    cases made : fileNameRule earlier with
    | ok rule => exact ⟨rule, rfl⟩
    | error error =>
      obtain ⟨fault', invalid', -⟩ := fileNameRule_eq_error_iff.1 made
      exact absurd ⟨fault', invalid'⟩ (valid earlier mem)

theorem exists_styles_error_iff {config : Config} :
    (∃ error, config.styles = .error error) ↔
      ∃ key ∈ config.fileNames.keys, ∃ fault, InvalidKey key fault := by
  constructor
  · rintro ⟨error, fails⟩
    obtain ⟨key, framing, fault, least, invalid, -⟩ := styles_eq_error_iff.1 fails
    exact ⟨key, SortedMap.mem_keys_of_mem least.mem, fault, invalid⟩
  · rintro ⟨key, isKey, fault, invalid⟩
    obtain ⟨entry, mem, rfl⟩ := List.mem_map.1 isKey
    cases made : config.styles with
    | error error => exact ⟨error, rfl⟩
    | ok table =>
      obtain ⟨rules, mapped, -⟩ := styles_eq_ok made
      obtain ⟨rule, made⟩ := exists_of_mapM_eq_ok mapped mem
      cases made.symm.trans (fileNameRule_eq_error_iff.2 ⟨fault, invalid, rfl⟩)

theorem find?_fileNameRules {name : String} {entries : List (String × Framing)}
    {rules : List StyleRule}
    (made : List.Forall₂ (fun entry rule => fileNameRule entry = .ok rule) entries rules) :
    (rules.find? (·.matcher.accepts name)).map (·.style) =
      (entries.find? fun entry => keyAccepts name entry.1).map
        fun entry => entry.2.toStyle (entry.1 ++ "-style") := by
  induction made with
  | nil => rfl
  | @cons entry rule entries rules head _ ih =>
    obtain ⟨accepts, style⟩ := fileNameRule_eq_ok head
    rw [List.find?_cons, List.find?_cons, accepts]
    cases keyAccepts name entry.1 with
    | true => exact congrArg some style
    | false => exact ih

theorem find?_extensionRules {name : String} {entries : List (String × Framing)} :
    ((entries.map extensionRule).find? (·.matcher.accepts name)).map (·.style) =
      (entries.find? fun entry => extensionAccepts name entry.1).map
        fun entry => entry.2.toStyle ("." ++ entry.1 ++ "-style") := by
  rw [List.find?_map, Option.map_map]
  rfl

/-- File names go before extensions, and both before what is built in. -/
theorem resolve_of_styles {config : Config} {table : StyleTable} (made : config.styles = .ok table)
    (name : String) : table.resolve name =
      ((config.fileNames.entries.find? fun entry => keyAccepts name entry.1).map
          fun entry => entry.2.toStyle (entry.1 ++ "-style")).or
        (((config.extensions.entries.find? fun entry => extensionAccepts name entry.1).map
          fun entry => entry.2.toStyle ("." ++ entry.1 ++ "-style")).or
        (StyleTable.builtin.resolve name)) := by
  obtain ⟨rules, mapped, rfl⟩ := styles_eq_ok made
  rw [StyleTable.resolve, List.append_assoc, List.find?_append, Option.map_or, List.find?_append,
    Option.map_or, find?_fileNameRules (mapM_eq_ok_iff.1 mapped), find?_extensionRules]
  rfl

theorem getLast?_of_hasExtension {name extension : String} (ends : HasExtension name extension) :
    name.toList.getLast? = ("." ++ extension).toList.getLast? := by
  obtain ⟨stem, rfl⟩ := ends
  rw [String.append_assoc, String.toList_append, List.getLast?_append_of_ne_nil]
  rw [String.toList_append]
  exact List.append_ne_nil_of_left_ne_nil (by decide) _

/-- No name has two built-in styles: the last characters of their endings are different. -/
theorem not_isScript_of_isCSource {name : String} (source : IsCSource name) : ¬ IsScript name := by
  have last : name.toList.getLast? = some 'p' ∨ name.toList.getLast? = some 'c' ∨
      name.toList.getLast? = some 'h' :=
    source.imp getLast?_of_hasExtension (.imp getLast?_of_hasExtension getLast?_of_hasExtension)
  rintro (rfl | ends)
  · exact absurd last (by decide)
  · rw [getLast?_of_hasExtension ends] at last
    exact absurd last (by decide)

theorem builtIn_resolve (name : String) : BuiltIn name (StyleTable.builtin.resolve name) := by
  have cpp := @extensionAccepts_iff name "cpp"
  have c := @extensionAccepts_iff name "c"
  have h := @extensionAccepts_iff name "h"
  have build : (NameMatcher.exact "BUILD").accepts name = true ↔ name = "BUILD" :=
    decide_eq_true_iff
  have py := @extensionAccepts_iff name "py"
  simp only [extensionAccepts, String.reduceAppend] at cpp c h py
  simp only [StyleTable.resolve, StyleTable.builtin, List.find?_cons]
  -- One rule after the other: the one that accepts, or all have refused.
  split
  · next accepts => exact .c (.inl (cpp.1 accepts))
  next noCpp =>
  split
  · next accepts => exact .c (.inr (.inl (c.1 accepts)))
  next noC =>
  split
  · next accepts => exact .c (.inr (.inr (h.1 accepts)))
  next noH =>
  split
  · next accepts => exact .shell (.inl (build.1 accepts))
  next noBuild =>
  split
  · next accepts => exact .shell (.inr (py.1 accepts))
  next noPy =>
  refine .none ?_ ?_
  · simp only [IsCSource, ← cpp, ← c, ← h, noCpp, noC, noH, Bool.false_eq_true, or_self,
      not_false_eq_true]
  · simp only [IsScript, ← build, ← py, noBuild, noPy, Bool.false_eq_true, or_self,
      not_false_eq_true]

theorem BuiltIn.eq_resolve {name : String} {found : Option CommentStyle}
    (builtIn : BuiltIn name found) : StyleTable.builtin.resolve name = found := by
  have resolved := builtIn_resolve name
  generalize StyleTable.builtin.resolve name = other at resolved
  cases builtIn with
  | c source =>
    cases resolved with
    | c => rfl
    | shell script => exact absurd script (not_isScript_of_isCSource source)
    | none noSource => exact absurd source noSource
  | shell script =>
    cases resolved with
    | c source => exact absurd script (not_isScript_of_isCSource source)
    | shell => rfl
    | none _ noScript => exact absurd script noScript
  | none noSource noScript =>
    cases resolved with
    | c source => exact absurd source noSource
    | shell script => exact absurd script noScript
    | none => rfl

/-- A table resolves a name to the style that its configuration selects. -/
theorem selects_resolve {config : Config} {table : StyleTable} (made : config.styles = .ok table)
    (name : String) : Selects config name (table.resolve name) := by
  rw [resolve_of_styles made]
  cases named : config.fileNames.entries.find? fun entry => keyAccepts name entry.1 with
  | some entry =>
    obtain ⟨key, framing⟩ := entry
    have least : config.fileNames.Least (KeyMatches · name) key framing :=
      (SortedMap.find?_eq_some_iff fun _ => keyAccepts_iff).1 named
    exact .fileName least
  | none =>
    have unnamed : ∀ key ∈ config.fileNames.keys, ¬ KeyMatches key name :=
      (SortedMap.find?_eq_none_iff fun _ => keyAccepts_iff).1 named
    cases extended : config.extensions.entries.find? fun entry => extensionAccepts name entry.1 with
    | some entry =>
      obtain ⟨key, framing⟩ := entry
      have least : config.extensions.Least (HasExtension name) key framing :=
        (SortedMap.find?_eq_some_iff fun _ => extensionAccepts_iff).1 extended
      exact .extension unnamed least
    | none =>
      have unextended : ∀ key ∈ config.extensions.keys, ¬ HasExtension name key :=
        (SortedMap.find?_eq_none_iff fun _ => extensionAccepts_iff).1 extended
      exact .builtin unnamed unextended (builtIn_resolve name)

theorem resolve_of_selects {config : Config} {table : StyleTable} (made : config.styles = .ok table)
    {name : String} {found : Option CommentStyle} (selects : Selects config name found) :
    table.resolve name = found := by
  rw [resolve_of_styles made]
  cases selects with
  | fileName least =>
    rw [(SortedMap.find?_eq_some_iff fun _ => keyAccepts_iff).2 least]
    rfl
  | extension unnamed least =>
    rw [(SortedMap.find?_eq_none_iff fun _ => keyAccepts_iff).2 unnamed,
      (SortedMap.find?_eq_some_iff fun _ => extensionAccepts_iff).2 least]
    rfl
  | builtin unnamed unextended builtIn =>
    rw [(SortedMap.find?_eq_none_iff fun _ => keyAccepts_iff).2 unnamed,
      (SortedMap.find?_eq_none_iff fun _ => extensionAccepts_iff).2 unextended]
    exact builtIn.eq_resolve

/-- A configuration fails at its least invalid key and at nothing else. In the table of any other a
name has the style of the least key that matches it, of a file name if there is one, else of an
extension, and what is built in counts for the remaining names. The order in which a document gives
the styles has no part in it. -/
theorem styles_by_least_key (config : Config) :
    ((∃ error, config.styles = .error error) ↔
        ∃ key ∈ config.fileNames.keys, ∃ fault, InvalidKey key fault) ∧
      (∀ error, config.styles = .error error ↔ ∃ key framing fault,
        config.fileNames.Least (fun key => ∃ fault, InvalidKey key fault) key framing ∧
          InvalidKey key fault ∧ error = .invalidPattern key fault) ∧
      (∀ table, config.styles = .ok table →
        ∀ name found, table.resolve name = found ↔ Selects config name found) ∧
      ∀ text text' table table', Toml.parse text = .ok table → Toml.parse text' = .ok table' →
        table.Reordered table' → (parse text = .ok config ↔ parse text' = .ok config) := by
  refine ⟨exists_styles_error_iff, fun error => styles_eq_error_iff, ?_, ?_⟩
  · intro table made name found
    constructor
    · intro resolved
      exact resolved ▸ selects_resolve made name
    · exact resolve_of_selects made
  · intro text text' table table' parsed parsed' same
    exact ⟨parse_reordered parsed parsed' same, parse_reordered parsed' parsed same.symm⟩

/-- Two patterns that match the same names, and an extension that has a built-in style. -/
def overlapping : Config :=
  ⟨none, none, ⟨[("py", ⟨"##-", "##", "##"⟩)], by decide⟩,
    ⟨[("*.c", ⟨"//-", "//", "//"⟩), ("*.tab.c", ⟨"//+", "//", "//"⟩)], by decide⟩⟩

def overlappingTable : StyleTable :=
  ⟨⟨.glob ⟨"*.c", [.anyText, .literal '.', .literal 'c'], by decide +kernel⟩,
      ⟨"*.c-style", "//-", "//", "//"⟩⟩ ::
    ⟨.glob ⟨"*.tab.c", [.anyText, .literal '.', .literal 't', .literal 'a', .literal 'b',
        .literal '.', .literal 'c'], by decide +kernel⟩, ⟨"*.tab.c-style", "//+", "//", "//"⟩⟩ ::
    ⟨.suffix ".py", ⟨".py-style", "##-", "##", "##"⟩⟩ :: StyleTable.builtin.rules⟩

def namesFirst : String :=
  "[filenames]\n\"*.c\" = ['//-', '//', '//']\n\"*.tab.c\" = ['//+', '//', '//']\n" ++
    "[comment-styles]\npy = ['##-', '##', '##']\n"

def namesLast : String :=
  "[comment-styles]\npy = ['##-', '##', '##']\n" ++
    "[filenames]\n\"*.tab.c\" = ['//+', '//', '//']\n\"*.c\" = ['//-', '//', '//']\n"

def pythonSection : String × Toml.Value :=
  ("comment-styles", .table .header [("py", .array [.string "##-", .string "##", .string "##"])])

/-- The two patterns, in the order in which they are given. -/
def namesSection (patterns : List (String × String)) : String × Toml.Value :=
  ("filenames", .table .header
    (patterns.map fun (key, opening) => (key, .array [.string opening, .string "//", .string "//"])))

set_option maxRecDepth 2000 in
theorem styles_of_overlapping_keys :
    (overlapping.styles = .ok overlappingTable ∧
        Selects overlapping "a.tab.c" (some ⟨"*.c-style", "//-", "//", "//"⟩) ∧
        Selects overlapping "a.py" (some ⟨".py-style", "##-", "##", "##"⟩)) ∧
      Toml.parse namesFirst =
        .ok [namesSection [("*.c", "//-"), ("*.tab.c", "//+")], pythonSection] ∧
      Toml.parse namesLast =
        .ok [pythonSection, namesSection [("*.tab.c", "//+"), ("*.c", "//-")]] ∧
      parse namesFirst = .ok overlapping ∧ parse namesLast = .ok overlapping := by
  obtain ⟨-, -, selects, written⟩ := styles_by_least_key overlapping
  have made : overlapping.styles = .ok overlappingTable := by decide +kernel
  have first : Toml.parse namesFirst =
      .ok [namesSection [("*.c", "//-"), ("*.tab.c", "//+")], pythonSection] := by rfl
  have last : Toml.parse namesLast =
      .ok [pythonSection, namesSection [("*.tab.c", "//+"), ("*.c", "//-")]] := by rfl
  have same := written _ _ _ _ first last
    ⟨[namesSection [("*.tab.c", "//+"), ("*.c", "//-")], pythonSection],
      .cons ⟨rfl, .table (.swap _ _ _)⟩ (.cons ⟨rfl, .refl _⟩ .nil), .swap _ _ _⟩
  have decoded : parse namesFirst = .ok overlapping := by
    rw [parse, first]
    rfl
  exact ⟨⟨made, (selects _ made "a.tab.c" _).1 (by decide +kernel),
    (selects _ made "a.py" _).1 (by decide +kernel)⟩, first, last, decoded, same.1 decoded⟩

end Config

end CopyrightHeader

import CopyrightHeader.Invocation
import CopyrightHeader.Proofs.Repetition

/-! An invocation and the same one on what it left.

The configuration is found again where it was. If it also reads the same, the second invocation
does what the first did. The one way in which it can read otherwise is that the first invocation
took the file of the configuration for one of the sources and put a header into it.
-/

set_option autoImplicit false

namespace CopyrightHeader

variable {files : FileSystem} {change : List FileName → ByteArray → ByteArray}

namespace FileSystem

theorem isPresent_mapFiles (change : List FileName → ByteArray → ByteArray) (files : FileSystem)
    (path : Path) : (files.mapFiles change).isPresent path = files.isPresent path := by
  rw [isPresent, isPresent, resolve_mapFiles]
  rcases files.resolve .use path with error | (⟨location, node⟩ | location)
  all_goals rfl

/-- A file whose content is kept reads the same. -/
theorem readText_mapFiles {path : Path}
    (keeps : ∀ location content, files.resolve .use path = .ok (.node location (.leaf (.file content))) →
      change location content = content) :
    (files.mapFiles change).readText path = files.readText path := by
  rw [readText, readText, read, read, resolve_mapFiles]
  rcases leads : files.resolve .use path with error | (⟨location, ((content | target) | inner)⟩ | location)
  case ok.node.leaf.file =>
    simp only [Except.map, Place.mapFiles, Node.mapFiles, keeps location content leads]
  all_goals rfl

end FileSystem

namespace ConfigSources

variable {sources : ConfigSources}

theorem discover_mapFiles (change : List FileName → ByteArray → ByteArray) (sources : ConfigSources)
    (files : FileSystem) : sources.discover (files.mapFiles change) = sources.discover files := by
  have same : (files.mapFiles change).isPresent = files.isPresent :=
    funext (files.isPresent_mapFiles change)
  rw [discover, discover, environmentFile, environmentFile, same]

theorem discoverEvents_mapFiles (change : List FileName → ByteArray → ByteArray)
    (sources : ConfigSources) (files : FileSystem) :
    sources.discoverEvents (files.mapFiles change) = sources.discoverEvents files := by
  simp only [discoverEvents, FileSystem.isPresent_mapFiles]

/-- Where the entry stands that the configuration in force is read from. -/
def place (sources : ConfigSources) (files : FileSystem) : Option (List FileName) :=
  if sources.disabled then none
  else
    match (sources.discover files).map (files.resolve .use) with
    | some (.ok (.node location _)) => some location
    | _ => none

/-- The configuration reads the same if the content of its file is kept. -/
theorem load_mapFiles
    (keeps : ∀ location content, sources.place files = some location →
      files.top.nodeAt location = some (.leaf (.file content)) → change location content = content) :
    sources.load (files.mapFiles change) = sources.load files := by
  rw [load, load, discover_mapFiles]
  cases disabled : sources.disabled with
  | true => rfl
  | false =>
    cases discovered : sources.discover files with
    | none => rfl
    | some path =>
      have reads : (files.mapFiles change).readText path = files.readText path := by
        apply FileSystem.readText_mapFiles
        intro location content leads
        apply keeps location content
        · simp [place, disabled, discovered, leads]
        · exact FileSystem.nodeAt_of_resolve leads
      simp only [Config.load, reads]

/-- What is told about the configuration follows from where it is found and what it says. -/
theorem loadEvents_mapFiles
    (reloads : sources.load (files.mapFiles change) = sources.load files) :
    sources.loadEvents (files.mapFiles change) = sources.loadEvents files := by
  rw [load, load, discover_mapFiles] at reloads
  rw [loadEvents, loadEvents, discover_mapFiles, discoverEvents_mapFiles]
  cases disabled : sources.disabled with
  | true => rfl
  | false =>
    cases discovered : sources.discover files with
    | none => rfl
    | some path =>
      have same : Config.load (files.mapFiles change) path = Config.load files path := by
        simp only [disabled, discovered] at reloads
        cases first : Config.load files path <;> cases second : Config.load (files.mapFiles change) path <;>
          simp_all
      simp only [Config.loadEvents, same]

end ConfigSources

namespace Options

/-- The processor that the configuration in force asks for. -/
def configured (options : Options) (environment : Environment) (files : FileSystem) :
    Except Failure Processor :=
  match (options.sources environment).load files with
  | .error error => .error (.loading error)
  | .ok config =>
    match Processor.ofConfig environment.year config with
    | .error error => .error (.building error)
    | .ok processor => .ok processor

section

variable {options : Options} {environment : Environment} {processor : Processor}

theorem exists_config_of_configured (built : options.configured environment files = .ok processor) :
    ∃ config, (options.sources environment).load files = .ok config ∧
      Processor.ofConfig environment.year config = .ok processor := by
  unfold configured at built
  split at built
  · cases built
  · next config loaded =>
    split at built
    · cases built
    · next made =>
      cases built
      exact ⟨config, loaded, made⟩

/-- Without a failure there was a processor, and its run came to its end. -/
theorem exists_run_of_perform (succeeds : (options.perform environment files).failure = none) :
    ∃ processor summary, options.configured environment files = .ok processor ∧
      (processor.run options.root files).outcome = .ok summary ∧
      (options.perform environment files).files = (processor.run options.root files).files := by
  unfold perform at succeeds ⊢
  unfold configured
  cases loaded : (options.sources environment).load files with
  | error error => simp [loaded] at succeeds
  | ok config =>
    simp only [loaded, performWith] at succeeds ⊢
    cases made : Processor.ofConfig environment.year config with
    | error error => simp [made] at succeeds
    | ok processor =>
      simp only [made] at succeeds ⊢
      cases ended : (processor.run options.root files).outcome with
      | error error => simp [ended] at succeeds
      | ok summary => exact ⟨processor, summary, rfl, ended, rfl⟩

theorem perform_of_matches {after : FileSystem} {summary : Summary}
    (built : options.configured environment files = .ok processor)
    (succeeds : (processor.run options.root files).outcome = .ok summary)
    (alike : (processor.run options.root files).Matches (processor.run options.root after))
    (reloads : (options.sources environment).load after = (options.sources environment).load files)
    (retold : (options.sources environment).loadEvents after =
      (options.sources environment).loadEvents files) :
    options.perform environment after = options.perform environment files := by
  obtain ⟨config, loaded, made⟩ := exists_config_of_configured built
  have ends := alike.outcome.trans succeeds
  have leaves := alike.files summary succeeds
  simp only [perform, reloads, retold, loaded, performWith, made, succeeds, ends, leaves,
    alike.events]

/-- What a run leaves is performed on as the tree from before was, if the configuration reloads. -/
theorem perform_repeats (built : options.configured environment files = .ok processor)
    (recovers : processor.Recovers) {summary : Summary}
    (succeeds : (processor.run options.root files).outcome = .ok summary)
    (reloads : (options.sources environment).load (processor.run options.root files).files =
      (options.sources environment).load files) :
    options.perform environment (processor.run options.root files).files =
      options.perform environment files := by
  have alike := Processor.run_matches_run_run recovers rfl rfl options.root files
  obtain ⟨change, entries, -⟩ := Processor.agree_run recovers options.root files
  rw [entries] at reloads alike ⊢
  exact perform_of_matches built succeeds alike reloads (ConfigSources.loadEvents_mapFiles reloads)

/-- The entry that the configuration is read from is not one of the sources that have a style. -/
def SparesConfiguration (options : Options) (environment : Environment) (files : FileSystem)
    (processor : Processor) : Prop :=
  ∀ source ∈ files.sources processor.exclusions options.root,
    (options.sources environment).place files = some source.location →
      processor.styleOf source.path = none

instance (options : Options) (environment : Environment) (files : FileSystem)
    (processor : Processor) : Decidable (options.SparesConfiguration environment files processor) :=
  inferInstanceAs (Decidable (∀ source ∈ _, _ → _))

theorem load_run_of_spares (recovers : processor.Recovers)
    (spares : options.SparesConfiguration environment files processor) :
    (options.sources environment).load (processor.run options.root files).files =
      (options.sources environment).load files := by
  obtain ⟨change, entries, contents⟩ := Processor.agree_run recovers options.root files
  rw [entries]
  apply ConfigSources.load_mapFiles
  intro location content stands found
  rcases contents location content found with kept | ⟨source, member, rfl, style, styled, -⟩
  · exact kept
  · rw [spares source member stands] at styled
    cases styled

end

end Options

namespace Invocation

section

variable {arguments : List String} {environment : Environment} {options : Options}
  (parsed : CommandLine.parse arguments = .ok (.run options))

include parsed

theorem files_run (files : FileSystem) :
    (run arguments environment files).files = (options.perform environment files).files := by
  simp only [run, parsed]
  cases (options.perform environment files).failure with
  | none => rfl
  | some failure => rfl

theorem exitCode_run_eq_zero : (run arguments environment files).exitCode = 0 ↔
    (options.perform environment files).failure = none := by
  simp only [run, parsed]
  cases (options.perform environment files).failure with
  | none => simp
  | some failure => simp

theorem run_eq_of_perform_eq {after : FileSystem}
    (same : options.perform environment after = options.perform environment files) :
    run arguments environment after = run arguments environment files := by
  simp only [run, parsed, same]

/-- A configuration that cannot be read ends the invocation before anything is touched. -/
theorem run_of_load_error {error : LoadError}
    (unreadable : (options.sources environment).load files = .error error) :
    (run arguments environment files).exitCode = 1 ∧
      (run arguments environment files).files = files := by
  have fails : (options.perform environment files).failure = some (.loading error) := by
    simp only [Options.perform, unreadable]
  have stays : (options.perform environment files).files = files := by
    simp only [Options.perform, unreadable]
  simp only [run, parsed, fails, stays, and_self]

end

/-- An invocation that succeeds with line-safe headers does the same again on what it left, if the
configuration still reads the same. It does if the invocation did not update the file that the
configuration is in; if it cannot be read any more, the second invocation fails and leaves the tree
alone. -/
theorem repeats_if_configuration_reloads {arguments : List String} {environment : Environment}
    {files : FileSystem} (succeeds : (run arguments environment files).exitCode = 0)
    (safe : ∀ options processor, CommandLine.parse arguments = .ok (.run options) →
      options.configured environment files = .ok processor → processor.WritesLineSafe) :
    let first := run arguments environment files
    let second := run arguments environment first.files
    ((∀ options, CommandLine.parse arguments = .ok (.run options) →
        (options.sources environment).load first.files = (options.sources environment).load files) →
      second = first) ∧
    ((∀ options processor, CommandLine.parse arguments = .ok (.run options) →
        options.configured environment files = .ok processor →
        options.SparesConfiguration environment files processor) →
      second = first) ∧
    ∀ options error, CommandLine.parse arguments = .ok (.run options) →
      (options.sources environment).load first.files = .error error →
      second.exitCode = 1 ∧ second.files = first.files := by
  intro first second
  -- Only a run touches the tree; the other commands print the same again.
  cases parsed : CommandLine.parse arguments with
  | error error => simp [run, parsed] at succeeds
  | ok command =>
    cases command with
    | version =>
      have same : second = first := by simp only [second, first, run, parsed]
      exact ⟨fun _ => same, fun _ => same, by rintro _ _ ⟨⟩⟩
    | help =>
      have same : second = first := by simp only [second, first, run, parsed]
      exact ⟨fun _ => same, fun _ => same, by rintro _ _ ⟨⟩⟩
    | run options =>
      obtain ⟨processor, summary, built, ended, leaves⟩ :=
        Options.exists_run_of_perform ((exitCode_run_eq_zero parsed).1 succeeds)
      have left : first.files = (processor.run options.root files).files :=
        (files_run parsed files).trans leaves
      obtain ⟨config, -, made⟩ := Options.exists_config_of_configured built
      have recovers := Processor.recovers_of_conflict? (Processor.conflict?_of_ofConfig made)
        (safe options processor parsed built)
      have again (reloads : (options.sources environment).load first.files =
          (options.sources environment).load files) : second = first := by
        apply run_eq_of_perform_eq parsed
        rw [left] at reloads ⊢
        exact Options.perform_repeats built recovers ended reloads
      refine ⟨fun reloads => again (reloads options rfl), fun spares => again ?_, ?_⟩
      · rw [left]
        exact Options.load_run_of_spares recovers (spares options processor rfl built)
      · rintro _ error ⟨⟩ unreadable
        exact run_of_load_error parsed unreadable

/-- A tree whose configuration gives C files a notice of their own. -/
def configuredTree : FileSystem where
  top := .leaf ⟨".update-copyright.toml", by decide⟩
      (.file "notice = ['\x7b\x7byear\x7d\x7d The Authors']\n".toUTF8)
    (.leaf ⟨"app.c", by decide⟩ (.file "x\n".toUTF8) .nil)
  workingDirectory := []
  ordered := by decide
  startsInFolder := ⟨_, rfl⟩

def someYear : Environment := ⟨.unset, .unset, .unset, false, "2026"⟩

theorem repeats_beside_configuration :
    let first := run [] someYear configuredTree
    first.exitCode = 0 ∧ first.stdout =
        "Processing C-style file: ./app.c\nUpdated 1 file (1 C-style), skipped 1\n" ∧
      (∀ options processor, CommandLine.parse [] = .ok (.run options) →
        options.configured someYear configuredTree = .ok processor →
        processor.notice = ⟨["2026 The Authors"]⟩ ∧ processor.WritesLineSafe ∧
          options.SparesConfiguration someYear configuredTree processor) ∧
      run [] someYear first.files = first := by
  have succeeds : (run [] someYear configuredTree).exitCode = 0 := by decide +kernel
  have prints : (run [] someYear configuredTree).stdout =
      "Processing C-style file: ./app.c\nUpdated 1 file (1 C-style), skipped 1\n" := by decide +kernel
  have meets : ∀ options processor, CommandLine.parse [] = .ok (.run options) →
      options.configured someYear configuredTree = .ok processor →
      processor.notice = ⟨["2026 The Authors"]⟩ ∧ processor.WritesLineSafe ∧
        options.SparesConfiguration someYear configuredTree processor := by
    rintro options processor ⟨⟩ built
    have known : Options.configured ⟨⟨"."⟩, none, false, 0, false, .auto⟩ someYear configuredTree =
        .ok ⟨⟨["2026 The Authors"]⟩, .builtin, .default⟩ := by decide +kernel
    cases known.symm.trans built
    exact ⟨rfl, by decide, by decide +kernel⟩
  have again := repeats_if_configuration_reloads succeeds
    fun options processor parsed built => (meets options processor parsed built).2.1
  exact ⟨succeeds, prints, meets, again.2.1
    fun options processor parsed built => (meets options processor parsed built).2.2⟩

/-- A configuration that gives all names one style, its own among them. -/
def catchAll : FileSystem where
  top := .leaf ⟨".update-copyright.toml", by decide⟩
    (.file "[filenames]\n'*' = ['/*-', ' *', ' */']\n".toUTF8) .nil
  workingDirectory := []
  ordered := by decide
  startsInFolder := ⟨_, rfl⟩

/-- The header that the first invocation writes is no TOML. -/
theorem not_repeated_in_configuration :
    let first := run [] someYear catchAll
    let second := run [] someYear first.files
    first.exitCode = 0 ∧
      (∀ options processor, CommandLine.parse [] = .ok (.run options) →
        options.configured someYear catchAll = .ok processor → processor.WritesLineSafe) ∧
      second.exitCode = 1 := by
  have succeeds : (run [] someYear catchAll).exitCode = 0 := by decide +kernel
  have fails : (run [] someYear (run [] someYear catchAll).files).exitCode = 1 := by decide +kernel
  have safe : ∀ options processor, CommandLine.parse [] = .ok (.run options) →
      options.configured someYear catchAll = .ok processor → processor.WritesLineSafe := by
    rintro options processor ⟨⟩ built
    have known : Options.configured ⟨⟨"."⟩, none, false, 0, false, .auto⟩ someYear catchAll =
        .ok ⟨.default, ⟨⟨.glob ⟨"*", [.anyText], by decide +kernel⟩, ⟨"*-style", "/*-", " *", " */"⟩⟩ ::
          StyleTable.builtin.rules⟩, .default⟩ := by decide +kernel
    cases known.symm.trans built
    decide
  exact ⟨succeeds, safe, fails⟩

end Invocation

end CopyrightHeader

import CopyrightHeader.Proofs.Announcements
import CopyrightHeader.Proofs.Reinvocation

/-! What an invocation tells, and what it has done by then.

Without a processor nothing is told and nothing is touched. With one, the files that are announced
are those that the run came to, all of them updated but the one that it failed at, and a run that
came to its end is summed up. How much is told has no part in what is done.
-/

set_option autoImplicit false

namespace CopyrightHeader

/-! ## Quiet options -/

namespace CommandLine

variable {given : Given} {options : Options}

theorem map_given_ne_run (result : Except UsageError Given) :
    result.map Reading.given ≠ .ok (.command (.run options)) := by
  cases result <;> simp [Except.map]

theorem bind_ne_run {result : Except UsageError Given} {next : Given → Except UsageError Reading}
    (goesOn : ∀ given, next given ≠ .ok (.command (.run options))) :
    result.bind next ≠ .ok (.command (.run options)) := by
  cases result with
  | error error => simp [Except.bind]
  | ok given => exact goesOn given

theorem readFlags_ne_run (chars : List Char) :
    readFlags given chars ≠ .ok (.command (.run options)) := by
  induction chars generalizing given with
  | nil => simp [readFlags]
  | cons c rest ih =>
    rw [readFlags]
    split
    · exact ih
    · split
      · split
        · exact ih
        · simp
      · split
        · simp
        · split <;> simp

theorem readLongFlag_ne_run (name : String) :
    readLongFlag given name ≠ .ok (.command (.run options)) := by
  unfold readLongFlag
  split
  · simp
  · split
    · exact map_given_ne_run _
    · split
      · exact map_given_ne_run _
      · split
        · simp
        · split <;> simp

theorem readRoots_ne_run (arguments : List String) :
    readRoots given arguments ≠ .ok (.command (.run options)) := by
  induction arguments generalizing given with
  | nil => simp [readRoots]
  | cons value rest ih =>
    rw [readRoots]
    split
    · exact ih
    · simp

/-- Reading alone never comes to a run; what must not be given together is looked at first. -/
theorem readArguments_ne_run (arguments : List String) :
    readArguments given arguments ≠ .ok (.command (.run options)) := by
  fun_induction readArguments given arguments with
  | case1 | case8 | case10 | case11 => simp
  | case2 => exact readRoots_ne_run _
  | case4 | case15 => assumption
  | case5 => exact readFlags_ne_run _
  | case16 => exact readLongFlag_ne_run _
  | case14 => exact map_given_ne_run _
  | case3 | case6 | case7 | case9 | case12 | case13 => exact bind_ne_run (by assumption)

theorem verbose_eq_zero_of_quiet {arguments : List String}
    (parsed : parse arguments = .ok (.run options)) (quiet : options.quiet = true) :
    options.verbose = 0 := by
  unfold parse at parsed
  split at parsed
  · cases parsed
  · next command read =>
    cases parsed
    exact absurd read (readArguments_ne_run arguments)
  · next given _ =>
    unfold finish at parsed
    split at parsed
    · cases parsed
    · next apart =>
      split at parsed
      · cases parsed
      · cases parsed
        have quiet : given.quiet = true := quiet
        simpa [quiet] using apart

end CommandLine

/-! ## Standard output -/

/-- Lines as they are printed under the options: in colour if that is asked for in any case, or left
open and standard output shows colours. -/
def Options.printed (options : Options) (showsColors : Bool) (messages : List String) : String :=
  String.join <| messages.map fun message =>
    if options.colors = .always ∨ options.colors = .auto ∧ showsColors then
      "\x1b[33m" ++ message ++ "\x1b[39m\n"
    else message ++ "\n"

theorem ColorMode.paints_iff {mode : ColorMode} {showsColors : Bool} :
    mode.paints showsColors ↔ mode = .always ∨ mode = .auto ∧ showsColors := by
  cases mode <;> simp [paints]

namespace Console

theorem unlines_map_paint (options : Options) (environment : Environment) (messages : List String) :
    unlines (messages.map (options.console environment).paint) =
      options.printed environment.showsColors messages := by
  apply String.toList_injective
  rw [Options.printed]
  induction messages with
  | nil => rfl
  | cons message messages ih =>
    simp only [unlines, String.toList_ofList, String.toList_join, List.map_cons, List.flatMap_cons]
      at ih ⊢
    rw [ih, paint]
    simp only [Options.console, ColorMode.paints_iff]
    split <;> simp

/-- Unless it is told to be quiet, a console prints what events tell. -/
theorem stdout_of_loud {console : Console} (loud : console.mode.isQuiet = false)
    (events : List Event) :
    console.stdout events = unlines ((Event.told events).map console.paint) := by
  rw [stdout]
  congr 1
  induction events with
  | nil => rfl
  | cons event events ih =>
    by_cases progress : event.channel = .progress
    · have line : console.stdoutLine event = some (console.paint event.message) := by
        rw [stdoutLine, if_pos ⟨progress, loud⟩]
      rw [List.filterMap_cons_some line, Event.told_cons_of_progress progress, List.map_cons, ih]
    · have line : console.stdoutLine event = none := by
        rw [stdoutLine, if_neg fun both => progress both.1]
      rw [List.filterMap_cons_none line, Event.told_cons_of_ne progress, ih]

theorem stdout_of_quiet {console : Console} (quiet : console.mode.isQuiet = true)
    (events : List Event) : console.stdout events = "" := by
  have none : events.filterMap console.stdoutLine = [] := by
    rw [List.filterMap_eq_nil_iff]
    intro event _
    rw [stdoutLine, if_neg fun both => by simp [quiet] at both]
  rw [stdout, none]
  rfl

end Console

theorem isQuiet_console {arguments : List String} {options : Options}
    (parsed : CommandLine.parse arguments = .ok (.run options)) (environment : Environment) :
    (options.console environment).mode.isQuiet = options.quiet := by
  cases quiet : options.quiet with
  | true =>
    have still := CommandLine.verbose_eq_zero_of_quiet parsed quiet
    simp [Options.console, OutputMode.ofFlags, OutputMode.isQuiet, quiet, still]
  | false =>
    simp only [Options.console, OutputMode.ofFlags, OutputMode.isQuiet, quiet]
    split <;> simp

/-! ## The journal of a run -/

namespace Processor

/-- The sources are what a walk collects, in its order, each with the place of its own. -/
structure Collects (processor : Processor) (root : Path) (files : FileSystem)
    (sources : List Source) : Prop where
  paths : files.sourceFiles processor.exclusions root = .ok (sources.map (·.path))
  apart : (sources.map (·.location)).Nodup
  held : ∀ source ∈ sources, files.Holds source

/-- What may be told of a run, with the exit code: as far as it came every file with a style was
announced and then updated, but the one that it failed at, and it is summed up if it did not fail. -/
inductive Journal (processor : Processor) (root : Path) (before after : FileSystem) :
    (exitCode : Nat) → (messages : List String) → Prop where
  | unwalked {error : WalkError}
      (failed : before.sourceFiles processor.exclusions root = .error error)
      (kept : after = before) : Journal processor root before after 1 []
  | finished {sources : List Source} {summary : Summary}
      (collected : processor.Collects root before sources)
      (outcome : (processor.run root before).outcome = .ok summary)
      (revises : processor.Revises before after sources)
      (count : ((sources.map (·.path)).filterMap processor.announcement).length = summary.total) :
      Journal processor root before after 0
        ((sources.map (·.path)).filterMap processor.announcement ++ [summary.line])
  | stopped {done rest : List Source} {failing : Source} {style : CommentStyle} {error : RunError}
      (collected : processor.Collects root before (done ++ failing :: rest))
      (styled : processor.styleOf failing.path = some style)
      (outcome : (processor.run root before).outcome = .error error)
      (about : error.file? = some failing.path)
      (revises : processor.Revises before after done)
      (kept : after.top.nodeAt failing.location = some (.leaf (.file failing.content))) :
      Journal processor root before after 1
        ((done.map (·.path) ++ [failing.path]).filterMap processor.announcement)

variable {processor : Processor} {root : Path} {files : FileSystem}

theorem collects_sources {paths : List Path}
    (found : files.sourceFiles processor.exclusions root = .ok paths) :
    processor.Collects root files (files.sources processor.exclusions root) where
  paths := by rw [found, FileSystem.map_path_sources found]
  apart := files.nodup_sources processor.exclusions root
  held := fun _ => FileSystem.holds_of_mem_sources

theorem told_run_of_walk_error {error : WalkError}
    (failed : files.sourceFiles processor.exclusions root = .error error) :
    Event.told (processor.run root files).events = [] := by
  simp only [run, failed]
  rw [Event.told_cons_of_ne (by simp [Event.channel]), Event.told_map_excluded]

/-- Apart from what is told of the files, a run tells nothing. -/
theorem told_run {paths : List Path}
    (found : files.sourceFiles processor.exclusions root = .ok paths) :
    Event.told (processor.run root files).events =
      Event.told (processor.updateAll paths files .empty).events := by
  have silent (outcome : Except RunError Summary) : Event.told (finishedEvents outcome) = [] := by
    cases outcome <;> rfl
  simp only [run, found]
  rw [Event.told_append, silent, List.append_nil, List.cons_append,
    Event.told_cons_of_ne (by simp [Event.channel]), Event.told_append, Event.told_map_excluded,
    Event.told_cons_of_ne (by simp [Event.channel]), List.nil_append]

theorem announces_run {paths : List Path}
    (found : files.sourceFiles processor.exclusions root = .ok paths) :
    processor.Announces paths (processor.run root files).outcome
      (Event.told (processor.run root files).events) := by
  rw [told_run found, (run_endsAs_updateAll found).outcome]
  exact announces_updateAll processor paths files .empty

/-- All that is told of a run: the files on the way, and at the end what has been done. -/
def report (run : Run) : List String :=
  Event.told run.events ++
    match run.outcome with
    | .ok summary => [summary.line]
    | .error _ => []

def exitCode (run : Run) : Nat :=
  match run.outcome with
  | .ok _ => 0
  | .error _ => 1

/-- The path that a run fails at is that of one source only. -/
theorem eq_of_path_eq {sources done rest : List Source} {failing : Source} {front back : List Path}
    (once : (sources.map (·.path)).Nodup) (split : sources = done ++ failing :: rest)
    (reached : sources.map (·.path) = front ++ failing.path :: back) :
    front = done.map (·.path) := by
  have fresh : failing.path ∉ front ∧ failing.path ∉ back := by
    rw [reached, List.nodup_append, List.nodup_cons] at once
    exact ⟨fun member => once.2.2 _ member _ List.mem_cons_self rfl, once.2.1.1⟩
  rw [split, List.map_append, List.map_cons] at reached
  exact ((List.append_cons_inj_of_notMem fresh.1 fresh.2).1 reached.symm).1

/-- What a run tells is its journal. -/
theorem journal_run (processor : Processor) (root : Path) (files : FileSystem) :
    processor.Journal root files (processor.run root files).files (exitCode (processor.run root files))
      (report (processor.run root files)) := by
  cases found : files.sourceFiles processor.exclusions root with
  | error error =>
    obtain ⟨kept, outcome⟩ := run_of_walk_error found
    simp only [exitCode, report, outcome, told_run_of_walk_error found, List.append_nil]
    exact .unwalked found kept
  | ok paths =>
    have collected := collects_sources found
    have announces := announces_run found
    rw [← FileSystem.map_path_sources found] at announces
    rcases run_cases found with ⟨-, outcome, revises⟩ |
      ⟨done, failing, rest, error, split, -, ⟨style, styled, -⟩, fails, outcome, revises⟩
    · rw [outcome, announces_ok_iff] at announces
      rw [← FileSystem.map_path_sources found] at outcome
      simp only [exitCode, report, outcome, announces]
      exact .finished collected outcome revises
        (by rw [total_foldl_tally, Summary.total_empty, Nat.zero_add])
    · rw [outcome, announces_error_iff] at announces
      obtain ⟨front, path, back, reached, about, told⟩ := announces
      cases fails.file?_eq.symm.trans about
      have same := eq_of_path_eq (files.nodup_path_sources _ root) split reached
      rw [split] at collected
      -- What was updated in front of the failing source stands elsewhere.
      have still := revises.holds
        (collected.held failing (List.mem_append_right _ List.mem_cons_self))
        (location_notMem_of_nodup collected.apart)
      simp only [exitCode, report, outcome, told, List.append_nil, same]
      exact .stopped collected styled outcome about revises still.1

end Processor

/-! ## The journal of an invocation -/

theorem ConfigSources.told_loadEvents (sources : ConfigSources) (files : FileSystem) :
    Event.told (sources.loadEvents files) = [] := by
  have discovering : Event.told (sources.discoverEvents files) = [] := by
    simp only [discoverEvents]
    split
    · rfl
    · split
      · split <;> rfl
      · split
        · rfl
        · split <;> rfl
  have loading (path : Path) : Event.told (Config.loadEvents files path) = [] := by
    rw [Config.loadEvents]
    split <;> rfl
  unfold loadEvents
  split
  · rfl
  · rw [Event.told_append, discovering]
    split
    · rfl
    · exact loading _

theorem Processor.told_ofConfigEvents (year : String) (config : Option Config) :
    Event.told (Processor.ofConfigEvents year config) = [] := by
  cases config <;> rfl

namespace Options

variable {options : Options} {environment : Environment} {files : FileSystem}

theorem told_usingConfig (config : Option Config) :
    Event.told (if config.isSome then [.usingConfig] else []) = [] := by
  split <;> rfl

/-- Without a processor nothing is told, and nothing is touched. -/
theorem perform_of_not_configured {failure : Failure}
    (broken : options.configured environment files = .error failure) :
    (options.perform environment files).failure = some failure ∧
      (options.perform environment files).files = files ∧
      Event.told (options.perform environment files).events = [] := by
  unfold configured at broken
  unfold perform
  split at broken
  · next loaded =>
    cases broken
    simp only [loaded, ConfigSources.told_loadEvents, and_self]
  · next config loaded =>
    split at broken
    · next made =>
      cases broken
      simp only [loaded, performWith, made, Event.told_append, ConfigSources.told_loadEvents,
        Processor.told_ofConfigEvents, told_usingConfig, List.append_nil, and_self]
    · cases broken

/-- With a processor the run is told of, and only the run. -/
theorem perform_of_configured {processor : Processor}
    (built : options.configured environment files = .ok processor) :
    (options.perform environment files).files = (processor.run options.root files).files ∧
      Event.told (options.perform environment files).events =
        Processor.report (processor.run options.root files) ∧
      ((options.perform environment files).failure = none ↔
        Processor.exitCode (processor.run options.root files) = 0) := by
  obtain ⟨config, loaded, made⟩ := exists_config_of_configured built
  cases ended : (processor.run options.root files).outcome with
  | error error =>
    simp only [perform, loaded, performWith, made, ended, Event.told_append, told_usingConfig,
      ConfigSources.told_loadEvents, Processor.told_ofConfigEvents, Processor.report,
      Processor.exitCode, List.nil_append, List.append_nil]
    simp
  | ok summary =>
    have last : Event.told [.completed summary] = [summary.line] := rfl
    simp only [perform, loaded, performWith, made, ended, Event.told_append, told_usingConfig,
      ConfigSources.told_loadEvents, Processor.told_ofConfigEvents, Processor.report,
      Processor.exitCode, List.nil_append, last, and_self]

end Options

namespace Invocation

section

variable {arguments : List String} {environment : Environment} {options : Options}
  {files : FileSystem} (parsed : CommandLine.parse arguments = .ok (.run options))

include parsed

theorem stdout_run : (run arguments environment files).stdout =
    (options.console environment).stdout (options.perform environment files).events := by
  simp only [run, parsed]
  cases (options.perform environment files).failure <;> rfl

theorem exitCode_run : (run arguments environment files).exitCode =
    if (options.perform environment files).failure = none then 0 else 1 := by
  simp only [run, parsed]
  cases (options.perform environment files).failure <;> rfl

theorem stdout_run_of_quiet (quiet : options.quiet = true) :
    (run arguments environment files).stdout = "" := by
  have isQuiet := isQuiet_console parsed environment
  rw [stdout_run parsed, Console.stdout_of_quiet (isQuiet.trans quiet)]

theorem stdout_run_of_loud (loud : options.quiet = false) :
    (run arguments environment files).stdout =
      options.printed environment.showsColors
        (Event.told (options.perform environment files).events) := by
  have isQuiet := isQuiet_console parsed environment
  rw [stdout_run parsed, Console.stdout_of_loud (isQuiet.trans loud), Console.unlines_map_paint]

theorem run_of_not_configured {failure : Failure}
    (broken : options.configured environment files = .error failure) :
    (run arguments environment files).stdout = "" ∧ (run arguments environment files).files = files ∧
      (run arguments environment files).exitCode = 1 := by
  obtain ⟨fails, stays, silent⟩ := Options.perform_of_not_configured broken
  refine ⟨?_, (files_run parsed files).trans stays, ?_⟩
  · cases quiet : options.quiet with
    | true => exact stdout_run_of_quiet parsed quiet
    | false => rw [stdout_run_of_loud parsed quiet, silent]; rfl
  · rw [exitCode_run parsed, fails, if_neg (Option.some_ne_none failure)]

theorem run_of_configured {processor : Processor}
    (built : options.configured environment files = .ok processor) :
    (run arguments environment files).files = (processor.run options.root files).files ∧
      (run arguments environment files).exitCode =
        Processor.exitCode (processor.run options.root files) := by
  obtain ⟨leaves, -, ends⟩ := Options.perform_of_configured built
  refine ⟨(files_run parsed files).trans leaves, ?_⟩
  rw [exitCode_run parsed]
  split
  · next succeeds => exact (ends.1 succeeds).symm
  · next fails =>
    cases ended : (processor.run options.root files).outcome with
    | ok summary => exact absurd (ends.2 (by rw [Processor.exitCode, ended])) fails
    | error error => rw [Processor.exitCode, ended]

end

/-- Without a processor nothing is printed and nothing is touched. With one, the journal of its run
is printed, and nothing else; with quiet options it is not. The tree and the exit code in the end
are the same however much is told, and in whatever colours. -/
theorem prints_journal {arguments : List String} {options : Options}
    (parsed : CommandLine.parse arguments = .ok (.run options)) (environment : Environment)
    (files : FileSystem) :
    let outcome := run arguments environment files
    (∀ failure, options.configured environment files = .error failure →
      outcome.stdout = "" ∧ outcome.files = files ∧ outcome.exitCode = 1) ∧
    (∀ processor, options.configured environment files = .ok processor →
      ∃ messages, processor.Journal options.root files outcome.files outcome.exitCode messages ∧
        (options.quiet = false → outcome.stdout = options.printed environment.showsColors messages)) ∧
    (options.quiet = true → outcome.stdout = "") ∧
    ∀ otherArguments others logFilter noColor showsColors,
      CommandLine.parse otherArguments = .ok (.run others) →
      others.root = options.root → others.config = options.config →
      others.noConfig = options.noConfig →
      let other := run otherArguments { environment with logFilter, noColor, showsColors } files
      other.files = outcome.files ∧ other.exitCode = outcome.exitCode := by
  intro outcome
  refine ⟨fun failure broken => run_of_not_configured parsed broken, fun processor built => ?_,
    stdout_run_of_quiet parsed, ?_⟩
  · obtain ⟨leaves, exits⟩ := run_of_configured parsed built
    obtain ⟨-, told, -⟩ := Options.perform_of_configured built
    refine ⟨Processor.report (processor.run options.root files), ?_, fun loud => ?_⟩
    · rw [leaves, exits]
      exact processor.journal_run options.root files
    · rw [← told]
      exact stdout_run_of_loud parsed loud
  · intro otherArguments others logFilter noColor showsColors parsedToo root config noConfig other
    -- The configuration and the run are those of the root and the sources, which are the same.
    have sources : others.sources { environment with logFilter, noColor, showsColors } =
        options.sources environment := by
      simp only [Options.sources, root, config, noConfig]
    have configured : others.configured { environment with logFilter, noColor, showsColors } files =
        options.configured environment files := by
      simp only [Options.configured, sources]
    cases built : options.configured environment files with
    | error failure =>
      obtain ⟨-, stays, exits⟩ := run_of_not_configured parsed built
      obtain ⟨-, staysToo, exitsToo⟩ := run_of_not_configured parsedToo (configured.trans built)
      exact ⟨staysToo.trans stays.symm, exitsToo.trans exits.symm⟩
    | ok processor =>
      obtain ⟨leaves, exits⟩ := run_of_configured parsed built
      obtain ⟨leavesToo, exitsToo⟩ := run_of_configured parsedToo (configured.trans built)
      rw [root] at leavesToo exitsToo
      exact ⟨leavesToo.trans leaves.symm, exitsToo.trans exits.symm⟩

/-- The announcement of the file that the run fails at is the last that is printed, and it is
printed in colour, as it is without options where colours are shown; quietly, the same is done. -/
theorem prints_journal_of_binary :
    let coloured : Options := ⟨⟨"."⟩, none, false, 0, false, .always⟩
    let files := Processor.textAndBinary
    let outcome := run ["--colors=always"] someYear files
    CommandLine.parse ["--colors=always"] = .ok (.run coloured) ∧
      coloured.configured someYear files = .ok Processor.standard ∧
      (∃ messages, Processor.standard.Journal ⟨"."⟩ files outcome.files 1 messages ∧
        outcome.stdout = coloured.printed false messages) ∧
      outcome.stdout = "\x1b[33mProcessing C-style file: ./a.c\x1b[39m\n" ++
        "\x1b[33mProcessing C-style file: ./b.c\x1b[39m\n" ∧
      (run [] { someYear with showsColors := true } files).stdout = outcome.stdout ∧
      (run ["-q"] someYear files).files = outcome.files ∧ (run ["-q"] someYear files).stdout = "" := by
  intro coloured files outcome
  have parsed : CommandLine.parse ["--colors=always"] = .ok (.run coloured) := by rfl
  have built : coloured.configured someYear files = .ok Processor.standard := by decide +kernel
  have fails : outcome.exitCode = 1 := by decide +kernel
  have prints : outcome.stdout = "\x1b[33mProcessing C-style file: ./a.c\x1b[39m\n" ++
      "\x1b[33mProcessing C-style file: ./b.c\x1b[39m\n" := by decide +kernel
  have shown : (run [] { someYear with showsColors := true } files).stdout = outcome.stdout := by
    decide +kernel
  obtain ⟨-, journal, -, independent⟩ := prints_journal parsed someYear files
  obtain ⟨messages, tells, printed⟩ := journal _ built
  have quietly := independent ["-q"] ⟨⟨"."⟩, none, false, 0, true, .auto⟩ .unset .unset false
    rfl rfl rfl rfl
  rw [show (run ["--colors=always"] someYear files).exitCode = 1 from fails] at tells
  exact ⟨parsed, built, ⟨messages, tells, printed rfl⟩, prints, shown, quietly.1,
    by decide +kernel⟩

end Invocation

end CopyrightHeader

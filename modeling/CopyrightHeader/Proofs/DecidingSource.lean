import CopyrightHeader.Proofs.Reinvocation

/-! Which source the configuration comes from, and that the others have no part in it.

Whatever is given and whatever exists, there is one source that decides, or none is looked at. What is
loaded, or why nothing can be loaded, follows from what that source says. The variable in the
environment is a source only if it holds a text and the path can be followed; otherwise it has no part
in what is loaded, even if it names a file that is there.
-/

set_option autoImplicit false

namespace CopyrightHeader

namespace FileSystem

variable {files : FileSystem} {path : Path}

/-- Something stands where the path leads to, links followed. -/
def LeadsSomewhere (files : FileSystem) (path : Path) : Prop :=
  ∃ location node, files.resolve .use path = .ok (.node location node)

theorem isPresent_iff : files.isPresent path = true ↔ files.LeadsSomewhere path := by
  rw [isPresent, LeadsSomewhere]
  rcases files.resolve .use path with error | (⟨location, node⟩ | location)
  · simp
  · simp
  · simp

theorem leadsSomewhere_of_read {content : ByteArray} (reads : files.read path = .ok content) :
    files.LeadsSomewhere path := by
  unfold read at reads
  split at reads
  · next leads => exact ⟨_, _, leads⟩
  all_goals cases reads

theorem readText_eq_error_iff {error : OsError} : files.readText path = .error error ↔
    files.read path = .error error ∨
      ∃ content, files.read path = .ok content ∧ String.fromUTF8? content = none ∧
        error = .notText := by
  rw [readText]
  cases files.read path with
  | error error => simp
  | ok content =>
    cases decoded : String.fromUTF8? content with
    | none => simp [decoded, eq_comm]
    | some text => simp [decoded]

end FileSystem

namespace Config

variable {files : FileSystem} {path : Path}

/-- Why a path gives no configuration. -/
inductive Unloadable (files : FileSystem) (path : Path) : ConfigError → Prop where
  | unreadable {error : OsError} (fails : files.read path = .error error) :
      Unloadable files path (.unreadable path error)
  | notText {content : ByteArray} (reads : files.read path = .ok content)
      (undecodable : String.fromUTF8? content = none) :
      Unloadable files path (.unreadable path .notText)
  | malformed {text : String} {fault : DecodeFault} (reads : files.readText path = .ok text)
      (denotes : parse text = .error fault) : Unloadable files path (.malformed path fault)
  | invalid {text : String} {config : Config} {error : ConfigError}
      (reads : files.readText path = .ok text) (denotes : parse text = .ok config)
      (faulty : config.fault? = some error) : Unloadable files path error

theorem load_eq_ok_iff {config : Config} : load files path = .ok config ↔
    ∃ text, files.readText path = .ok text ∧ parse text = .ok config ∧ config.fault? = none := by
  rw [load]
  constructor
  · intro loads
    split at loads
    · cases loads
    · next reads =>
      split at loads
      · cases loads
      · next denotes =>
        split at loads
        · cases loads
        · next faultless =>
          cases loads
          exact ⟨_, reads, denotes, faultless⟩
  · rintro ⟨text, reads, denotes, faultless⟩
    simp only [reads, denotes, faultless]

theorem load_eq_error_iff {error : ConfigError} :
    load files path = .error error ↔ Unloadable files path error := by
  rw [load]
  constructor
  · intro fails
    split at fails
    · next reason =>
      cases fails
      rcases FileSystem.readText_eq_error_iff.1 reason with fails | ⟨content, reads, undecodable, rfl⟩
      · exact .unreadable fails
      · exact .notText reads undecodable
    · next reads =>
      split at fails
      · next denotes =>
        cases fails
        exact .malformed reads denotes
      · next denotes =>
        split at fails
        · next faulty =>
          cases fails
          exact .invalid reads denotes faulty
        · cases fails
  · intro unloadable
    cases unloadable with
    | unreadable fails => rw [FileSystem.readText_eq_error_iff.2 (.inl fails)]
    | notText reads undecodable =>
      rw [FileSystem.readText_eq_error_iff.2 (.inr ⟨_, reads, undecodable, rfl⟩)]
    | malformed reads denotes => simp only [reads, denotes]
    | invalid reads denotes faulty => simp only [reads, denotes, faulty]

end Config

namespace ConfigSources

variable {sources : ConfigSources} {files : FileSystem} {path : Path} {choice other : Option Path}

/-- The path that decides; none if nothing is looked at or nothing is found. -/
inductive Decides (sources : ConfigSources) (files : FileSystem) : Option Path → Prop where
  | disabled (off : sources.disabled = true) : Decides sources files none
  | explicit {path : Path} (on : sources.disabled = false) (given : sources.explicit = some path) :
      Decides sources files (some path)
  | environment {value : String} (on : sources.disabled = false) (notGiven : sources.explicit = none)
      (named : sources.environment = .text value) (leads : files.LeadsSomewhere ⟨value⟩) :
      Decides sources files (some ⟨value⟩)
  | rootFile (on : sources.disabled = false) (notGiven : sources.explicit = none)
      (unnamed : ∀ value, sources.environment = .text value → ¬ files.LeadsSomewhere ⟨value⟩)
      (leads : files.LeadsSomewhere (sources.root.join ".update-copyright.toml")) :
      Decides sources files (some (sources.root.join ".update-copyright.toml"))
  | nothing (on : sources.disabled = false) (notGiven : sources.explicit = none)
      (unnamed : ∀ value, sources.environment = .text value → ¬ files.LeadsSomewhere ⟨value⟩)
      (missing : ¬ files.LeadsSomewhere (sources.root.join ".update-copyright.toml")) :
      Decides sources files none

theorem environmentFile_eq_some_iff : sources.environmentFile files = some path ↔
    sources.environment = .text path.text ∧ files.LeadsSomewhere path := by
  rw [environmentFile, Option.filter_eq_some_iff, FileSystem.isPresent_iff, Option.map_eq_some_iff]
  refine and_congr_left fun _ => ⟨?_, fun named => ⟨path.text, Variable.text?_eq_some.2 named, rfl⟩⟩
  rintro ⟨value, named, rfl⟩
  exact Variable.text?_eq_some.1 named

theorem environmentFile_eq_none_iff : sources.environmentFile files = none ↔
    ∀ value, sources.environment = .text value → ¬ files.LeadsSomewhere ⟨value⟩ := by
  simp only [environmentFile, Option.filter_eq_none_iff, FileSystem.isPresent_iff,
    Option.map_eq_some_iff, Variable.text?_eq_some]
  constructor
  · exact fun none value named => none _ ⟨value, named, rfl⟩
  · rintro none _ ⟨value, named, rfl⟩
    exact none value named

/-- A search finds the path that decides. -/
theorem decides_discover (on : sources.disabled = false) :
    sources.Decides files (sources.discover files) := by
  rw [discover]
  cases given : sources.explicit with
  | some path => exact .explicit on given
  | none =>
    cases found : sources.environmentFile files with
    | some path =>
      obtain ⟨named, leads⟩ := environmentFile_eq_some_iff.1 found
      exact .environment on given named leads
    | none =>
      have unnamed := environmentFile_eq_none_iff.1 found
      by_cases leads : files.LeadsSomewhere sources.rootFile
      · have inRoot : (some sources.rootFile).filter files.isPresent = some sources.rootFile :=
          Option.filter_eq_some_iff.2 ⟨rfl, FileSystem.isPresent_iff.2 leads⟩
        rw [inRoot]
        exact .rootFile on given unnamed leads
      · have nowhere : (some sources.rootFile).filter files.isPresent = none := by
          simpa [FileSystem.isPresent_iff] using leads
        rw [nowhere]
        exact .nothing on given unnamed leads

theorem exists_decides (sources : ConfigSources) (files : FileSystem) :
    ∃ choice, sources.Decides files choice := by
  cases on : sources.disabled with
  | true => exact ⟨none, .disabled on⟩
  | false => exact ⟨_, decides_discover on⟩

theorem Decides.unique (first : sources.Decides files choice) (second : sources.Decides files other) :
    choice = other := by
  cases first with
  | disabled off => cases second <;> simp_all
  | explicit on given => cases second <;> simp_all
  | environment on notGiven named leads => cases second <;> simp_all
  | rootFile on notGiven unnamed leads => cases second <;> simp_all
  | nothing on notGiven unnamed missing => cases second <;> simp_all

theorem load_of_decides_none (decides : sources.Decides files none) : sources.load files = .ok none := by
  rw [load]
  cases on : sources.disabled with
  | true => rfl
  | false =>
    rw [← decides.unique (decides_discover on)]
    rfl

/-- What is loaded is what the path that decides gives. -/
theorem load_of_decides (decides : sources.Decides files (some path)) :
    sources.load files =
      match Config.load files path with
      | .ok config => .ok (some config)
      | .error error => .error ⟨path, error⟩ := by
  rw [load]
  cases on : sources.disabled with
  | true => cases decides.unique (.disabled on)
  | false =>
    rw [← decides.unique (decides_discover on)]
    rfl

theorem Decides.load_eq_ok_iff (decides : sources.Decides files (some path)) {config : Config} :
    sources.load files = .ok (some config) ↔
      ∃ text, files.readText path = .ok text ∧ Config.parse text = .ok config ∧
        config.fault? = none := by
  rw [load_of_decides decides, ← Config.load_eq_ok_iff]
  cases Config.load files path <;> simp

theorem Decides.load_eq_error_iff (decides : sources.Decides files (some path))
    {failure : LoadError} : sources.load files = .error failure ↔
      failure.path = path ∧ Config.Unloadable files path failure.error := by
  rw [load_of_decides decides, ← Config.load_eq_error_iff]
  obtain ⟨other, reason⟩ := failure
  cases Config.load files path <;> simp [eq_comm]

theorem Decides.load_ne_ok_none (decides : sources.Decides files (some path)) :
    sources.load files ≠ .ok none := by
  rw [load_of_decides decides]
  cases Config.load files path <;> simp

theorem Decides.exists_unreadable (decides : sources.Decides files (some path))
    (nowhere : ¬ files.LeadsSomewhere path) :
    ∃ error, sources.load files = .error ⟨path, .unreadable path error⟩ := by
  cases reads : files.read path with
  | ok content => exact absurd (FileSystem.leadsSomewhere_of_read reads) nowhere
  | error error => exact ⟨error, decides.load_eq_error_iff.2 ⟨rfl, .unreadable reads⟩⟩

/-- Nothing but the path that decides and what is read from it has a part in what is loaded. -/
theorem Decides.load_eq {sources' : ConfigSources} {files' : FileSystem}
    (decides : sources.Decides files choice) (decides' : sources'.Decides files' choice)
    (same : ∀ path, choice = some path → files'.read path = files.read path) :
    sources'.load files' = sources.load files := by
  cases choice with
  | none => rw [load_of_decides_none decides, load_of_decides_none decides']
  | some path =>
    have loads : Config.load files' path = Config.load files path := by
      simp only [Config.load, FileSystem.readText, same path rfl]
    rw [load_of_decides decides, load_of_decides decides', loads]

/-- Of the variable in the environment only the text in it has a part in what is loaded and told. -/
theorem load_congr_text? {reading : Variable} (same : reading.text? = sources.environment.text?)
    (files : FileSystem) :
    { sources with environment := reading }.load files = sources.load files ∧
      { sources with environment := reading }.loadEvents files = sources.loadEvents files := by
  have found : { sources with environment := reading }.discover files = sources.discover files := by
    rw [discover, discover, environmentFile, environmentFile, same]
    rfl
  have told : { sources with environment := reading }.discoverEvents files =
      sources.discoverEvents files := by
    rw [discoverEvents, discoverEvents, same]
    rfl
  constructor
  · rw [load, load, found]
  · rw [loadEvents, loadEvents, found, told]

/-- One source decides what the configuration is: nothing if none is looked at or found, and else
what the path that decides says. If that path leads nowhere or gives no configuration there is an
error with the reason, whatever the other sources say, and nothing is touched. Two situations in
which the same path decides and reads the same have the same configuration. A variable whose value
is not text has no part in what is loaded or told. -/
theorem load_decided_by_one_source (sources : ConfigSources) (files : FileSystem) :
    (∃! choice, sources.Decides files choice) ∧
    (sources.Decides files none → sources.load files = .ok none) ∧
    (∀ path, sources.Decides files (some path) →
      sources.load files ≠ .ok none ∧
      (∀ config, sources.load files = .ok (some config) ↔
        ∃ text, files.readText path = .ok text ∧ Config.parse text = .ok config ∧
          config.fault? = none) ∧
      (∀ failure, sources.load files = .error failure ↔
        failure.path = path ∧ Config.Unloadable files path failure.error) ∧
      (¬ files.LeadsSomewhere path →
        ∃ error, sources.load files = .error ⟨path, .unreadable path error⟩)) ∧
    (∀ (sources' : ConfigSources) (files' : FileSystem) (choice : Option Path),
      sources.Decides files choice → sources'.Decides files' choice →
      (∀ path, choice = some path → files'.read path = files.read path) →
      sources'.load files' = sources.load files) ∧
    (sources.environment = .undecodable →
      { sources with environment := .unset }.load files = sources.load files ∧
        { sources with environment := .unset }.loadEvents files = sources.loadEvents files) ∧
    ∀ arguments environment options error, CommandLine.parse arguments = .ok (.run options) →
      options.sources environment = sources → sources.load files = .error error →
      (Invocation.run arguments environment files).exitCode = 1 ∧
        (Invocation.run arguments environment files).files = files := by
  obtain ⟨choice, decides⟩ := exists_decides sources files
  refine ⟨⟨choice, decides, fun _ other => other.unique decides⟩, load_of_decides_none, ?_,
    fun _ _ _ => Decides.load_eq, fun undecodable => ?_, ?_⟩
  · intro path decides
    exact ⟨decides.load_ne_ok_none, fun _ => decides.load_eq_ok_iff,
      fun _ => decides.load_eq_error_iff, decides.exists_unreadable⟩
  · exact load_congr_text? (by rw [undecodable]; rfl) files
  · rintro arguments environment options error parsed rfl unreadable
    exact Invocation.run_of_load_error parsed unreadable

theorem isFileName_configFileName : IsFileName configFileName := by decide

/-- A good configuration in the root, beside a bad one and a link that leads nowhere. -/
def contested : FileSystem where
  top := .leaf ⟨configFileName, isFileName_configFileName⟩ (.file "notice = ['Root']\n".toUTF8)
    (.leaf ⟨"broken.toml", by decide⟩ (.file "notice = [".toUTF8)
      (.leaf ⟨"dangling", by decide⟩ (.link "missing.toml") .nil))
  workingDirectory := []
  ordered := by decide
  startsInFolder := ⟨_, rfl⟩

def brokenAlone : FileSystem where
  top := .leaf ⟨"broken.toml", by decide⟩ (.file "notice = [".toUTF8) .nil
  workingDirectory := []
  ordered := by decide
  startsInFolder := ⟨_, rfl⟩

/-- A bad file in the environment is not passed over, a link that leads nowhere is, and so is a value
that is not text. -/
theorem load_decided_by_broken_source :
    let broken : ConfigSources := ⟨false, none, .text "broken.toml", ⟨"."⟩⟩
    let dangling : ConfigSources := ⟨false, none, .text "dangling", ⟨"."⟩⟩
    let missing : ConfigSources := ⟨false, some ⟨"missing.toml"⟩, .text "broken.toml", ⟨"."⟩⟩
    let elsewhere : ConfigSources := ⟨false, some ⟨"broken.toml"⟩, .unset, ⟨"/"⟩⟩
    let garbled : ConfigSources := { broken with environment := .undecodable }
    let environment : Environment := { Invocation.someYear with config := .text "broken.toml" }
    (∃ fault, broken.load contested =
        .error ⟨⟨"broken.toml"⟩, .malformed ⟨"broken.toml"⟩ fault⟩) ∧
      elsewhere.load brokenAlone = broken.load contested ∧
      dangling.load contested = .ok (some { Config.empty with noticeLines := some ["Root"] }) ∧
      (∃ error, missing.load contested =
        .error ⟨⟨"missing.toml"⟩, .unreadable ⟨"missing.toml"⟩ error⟩) ∧
      { broken with disabled := true }.load contested = .ok none ∧
      { broken with environment := .unset }.load contested = garbled.load contested ∧
      (Invocation.run [] environment contested).exitCode = 1 ∧
      (Invocation.run [] environment contested).files = contested := by
  intro broken dangling missing elsewhere garbled environment
  have leads {path : Path} (present : contested.isPresent path = true) :=
    FileSystem.isPresent_iff.1 present
  have nowhere {path : Path} (absent : contested.isPresent path = false) :=
    mt FileSystem.isPresent_iff.2 (Bool.eq_false_iff.1 absent)
  have brokenDecides : broken.Decides contested (some ⟨"broken.toml"⟩) :=
    .environment rfl rfl rfl (leads (by decide +kernel))
  have rootDecides : dangling.Decides contested
      (some (dangling.root.join ".update-copyright.toml")) := by
    refine .rootFile rfl rfl ?_ (leads (by decide +kernel))
    rintro _ ⟨⟩
    exact nowhere (by decide +kernel)
  obtain ⟨-, -, decided, same, -, stops⟩ := load_decided_by_one_source broken contested
  have reads : contested.readText ⟨"broken.toml"⟩ = .ok "notice = [" := by decide +kernel
  obtain ⟨fault, malformed⟩ : ∃ fault, Config.parse "notice = [" = .error fault := ⟨_, rfl⟩
  have fails : broken.load contested =
      .error ⟨⟨"broken.toml"⟩, .malformed ⟨"broken.toml"⟩ fault⟩ :=
    ((decided _ brokenDecides).2.2.1 _).2 ⟨rfl, .malformed reads malformed⟩
  have alone : elsewhere.load brokenAlone = broken.load contested := by
    refine same elsewhere brokenAlone _ brokenDecides (.explicit rfl rfl) ?_
    rintro _ ⟨⟩
    decide +kernel
  have readsRoot : contested.readText (dangling.root.join ".update-copyright.toml") =
      .ok "notice = ['Root']\n" := by decide +kernel
  have loadsRoot := (((load_decided_by_one_source dangling contested).2.2.1 _ rootDecides).2.1 _).2
    ⟨_, readsRoot, rfl, rfl⟩
  have unread := ((load_decided_by_one_source missing contested).2.2.1 _ (.explicit rfl rfl)).2.2.2
    (nowhere (by decide +kernel))
  have off := (load_decided_by_one_source { broken with disabled := true } contested).2.1
    (.disabled rfl)
  have passedOver := (load_decided_by_one_source garbled contested).2.2.2.2.1 rfl
  obtain ⟨exits, kept⟩ := stops [] environment _ _ rfl rfl fails
  exact ⟨⟨fault, fails⟩, alone, loadsRoot, unread, off, passedOver.1, exits, kept⟩

/-- A configuration in the root and another one beside it. -/
def rivals : FileSystem where
  top := .leaf ⟨configFileName, isFileName_configFileName⟩ (.file "notice = ['Root']\n".toUTF8)
    (.leaf ⟨"named.toml", by decide⟩ (.file "notice = ['Named']\n".toUTF8) .nil)
  workingDirectory := []
  ordered := by decide
  startsInFolder := ⟨_, rfl⟩

/-- The file in the root is loaded although the environment names the one beside it, if it does so
by a path that is too long to be followed, or not by a text. On the command line the same path is an
error. -/
theorem load_gives_way_to_root :
    let far := Processor.farRoot 4090
    let long := far.join "named.toml"
    let sources (reading : Variable) : ConfigSources := ⟨false, none, reading, ⟨"."⟩⟩
    let explicit : ConfigSources := ⟨false, some long, .unset, ⟨"."⟩⟩
    let named : Config := { Config.empty with noticeLines := some ["Named"] }
    let inRoot : Config := { Config.empty with noticeLines := some ["Root"] }
    rivals.resolve .use far = .ok (.node [] (.folder rivals.top)) ∧
      (sources (.text "named.toml")).load rivals = .ok (some named) ∧
      explicit.load rivals = .error ⟨long, .unreadable long .nameTooLong⟩ ∧
      (sources (.text long.text)).load rivals = .ok (some inRoot) ∧
      (sources .undecodable).load rivals = .ok (some inRoot) := by
  intro far long sources explicit named inRoot
  have short : 4090 < Path.limit := by decide
  have exceeds : Path.limit < 4089 + 2 + (⟨"named.toml", by decide⟩ : FileName).text.utf8ByteSize := by
    decide
  have tooLong : rivals.resolve .use long = .error .nameTooLong :=
    Processor.resolve_join_farRoot exceeds rivals .use
  have leads : rivals.LeadsSomewhere ⟨"named.toml"⟩ := FileSystem.isPresent_iff.1 (by decide +kernel)
  have reads : rivals.readText ⟨"named.toml"⟩ = .ok "notice = ['Named']\n" := by decide +kernel
  have leadsRoot : rivals.LeadsSomewhere ((⟨"."⟩ : Path).join ".update-copyright.toml") :=
    FileSystem.isPresent_iff.1 (by decide +kernel)
  have readsRoot : rivals.readText ((⟨"."⟩ : Path).join ".update-copyright.toml") =
      .ok "notice = ['Root']\n" := by decide +kernel
  have loadsRoot {reading : Variable}
      (unnamed : ∀ value, reading = .text value → ¬ rivals.LeadsSomewhere ⟨value⟩) :
      (sources reading).load rivals = .ok (some inRoot) :=
    (Decides.rootFile rfl rfl unnamed leadsRoot).load_eq_ok_iff.2 ⟨_, readsRoot, rfl, rfl⟩
  -- What follows is said of any such path, so that the long one need not be written out.
  have unseen (path : Path) (tooLong : rivals.resolve .use path = .error .nameTooLong) :
      (⟨false, some path, .unset, ⟨"."⟩⟩ : ConfigSources).load rivals =
          .error ⟨path, .unreadable path .nameTooLong⟩ ∧
        (sources (.text path.text)).load rivals = .ok (some inRoot) := by
    have unread : rivals.read path = .error .nameTooLong := by rw [FileSystem.read, tooLong]
    refine ⟨(Decides.explicit rfl rfl).load_eq_error_iff.2 ⟨rfl, .unreadable unread⟩, loadsRoot ?_⟩
    rintro _ ⟨⟩ ⟨location, node, follows⟩
    cases tooLong.symm.trans follows
  obtain ⟨refused, passedOver⟩ := unseen long tooLong
  exact ⟨Processor.resolve_farRoot short rfl .use,
    (Decides.environment rfl rfl rfl leads).load_eq_ok_iff.2 ⟨_, reads, rfl, rfl⟩, refused,
    passedOver, loadsRoot (by rintro _ ⟨⟩)⟩

end ConfigSources

end CopyrightHeader

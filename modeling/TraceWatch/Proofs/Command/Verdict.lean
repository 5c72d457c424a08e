import TraceWatch.Command.Run
import TraceWatch.Config.Folder

/-!
# The verdict on a configuration file

`config validate` tells of a file whether it holds a valid configuration. But before it comes to any
command, the program loads the configuration that it would itself run with, and sets up its log as
that says. If this fails, the run ends there and the file is not looked at. So a run that is asked
about a file ends with zero exactly if the file is valid and nothing is wrong with the other
configuration: `CommandLine.verdict_on_file_iff`.
-/

namespace TraceWatch

/-! ## Where configurations come from -/

/-- The text that is read at a path is that of a configuration. -/
def Files.Holds (files : Files) (path : String) (config : ServiceConfig) : Prop :=
  ∃ text, files path = .ok text ∧ ServiceConfig.parse? text = some config

/-- What is read at a path is a configuration that keeps to the rules once the environment has
overridden it. -/
def Files.HoldsValid (files : Files) (environment : Environment) (path : String) : Prop :=
  ∃ config, files.Holds path config ∧ (config.overriddenBy environment).validate = .ok ()

theorem Files.holds_or (files : Files) (path : String) :
    (∃ config, files.Holds path config) ∨ (∃ error, files path = .error error) ∨
      ∃ text, files path = .ok text ∧ ServiceConfig.parse? text = none := by
  cases htext : files path with
  | error error => exact .inr (.inl ⟨error, rfl⟩)
  | ok text =>
    cases hparse : ServiceConfig.parse? text with
    | none => exact .inr (.inr ⟨text, rfl, hparse⟩)
    | some config => exact .inl ⟨config, text, htext, hparse⟩

namespace ServiceConfig

/-- The configuration, not yet overridden, that is loaded from the file named, or else from the one
found, or else is the default one. -/
inductive IsOrigin (files : Files) (environment : Environment) :
    Option String → ServiceConfig → Prop
  | named {path : String} {config : ServiceConfig} : files.Holds path config →
    IsOrigin files environment (some path) config
  | found {path : String} {config : ServiceConfig} : discover files environment = some path →
    files.Holds path config → IsOrigin files environment none config
  | none : discover files environment = none → IsOrigin files environment none fallback

variable {files : Files} {environment : Environment} {path : Option String} {config : ServiceConfig}

/-- What is loaded is the origin, overridden by the environment. -/
theorem load_eq_ok : load files environment path = .ok config ↔
    ∃ origin, IsOrigin files environment path origin ∧
      config = origin.overriddenBy environment := by
  constructor
  · intro h
    cases path with
    | some path =>
      obtain ⟨origin, text, htext, hparse⟩ | ⟨error, herror⟩ | ⟨text, htext, hparse⟩ :=
        files.holds_or path
      · simp only [load, htext, hparse, Except.ok.injEq] at h
        exact ⟨origin, .named ⟨text, htext, hparse⟩, h.symm⟩
      · simp only [load, herror, reduceCtorEq] at h
      · simp only [load, htext, hparse, reduceCtorEq] at h
    | none =>
      cases hfound : discover files environment with
      | none =>
        simp only [load, hfound, Except.ok.injEq] at h
        exact ⟨fallback, .none hfound, h.symm⟩
      | some path =>
        obtain ⟨origin, text, htext, hparse⟩ | ⟨error, herror⟩ | ⟨text, htext, hparse⟩ :=
          files.holds_or path
        · simp only [load, hfound, htext, hparse, Except.ok.injEq] at h
          exact ⟨origin, .found hfound ⟨text, htext, hparse⟩, h.symm⟩
        · simp only [load, hfound, herror, reduceCtorEq] at h
        · simp only [load, hfound, htext, hparse, reduceCtorEq] at h
  · rintro ⟨origin, horigin, rfl⟩
    cases horigin with
    | named h =>
      obtain ⟨text, htext, hparse⟩ := h
      simp only [load, htext, hparse]
    | found hfound h =>
      obtain ⟨text, htext, hparse⟩ := h
      simp only [load, hfound, htext, hparse]
    | none hnone => simp only [load, hnone]

end ServiceConfig

theorem Command.checkConfig_eq_ok {config : ServiceConfig} :
    checkConfig config = .ok () ↔ config.validate = .ok () := by
  rw [checkConfig, ServiceConfig.validate]
  cases config.fault? with
  | none => exact ⟨fun _ => rfl, fun _ => rfl⟩
  | some fault => exact ⟨nofun, nofun⟩

namespace Invocation

variable {i : Invocation} {files : Files} {environment : Environment} {config : ServiceConfig}
  {command : Command}

/-- A run comes to its command if its configuration can be loaded and the format of its log is
known. -/
theorem run_of_isLogFormat (hcommand : i.command = some command)
    (hload : ServiceConfig.load files environment i.config = .ok config)
    (hformat : ServiceConfig.isLogFormat
      (i.logFormat.getD config.observability.logFormat) = true) :
    i.run files environment = (command.run files environment i.config config).output := by
  have hlog : Command.checkLogFormat (i.logFormat.getD config.observability.logFormat) = .ok () :=
    if_pos hformat
  simp only [run, hload, hlog, hcommand]

/-- Otherwise it fails, whatever its command. -/
theorem exists_run_eq_error {path logFormat : Option String}
    (h : ∀ config, ServiceConfig.load files environment path = .ok config →
      ServiceConfig.isLogFormat (logFormat.getD config.observability.logFormat) = false) :
    ∃ error, ∀ i : Invocation, i.config = path → i.logFormat = logFormat →
      i.run files environment = Ending.output ⟨"", some error⟩ := by
  cases hload : ServiceConfig.load files environment path with
  | error error =>
    cases hlog : Command.checkLogFormat
        (logFormat.getD ServiceConfig.fallback.observability.logFormat) with
    | error error' =>
      refine ⟨error', fun i hpath hformat => ?_⟩
      simp only [run, hpath, hformat, hload, hlog]
    | ok =>
      refine ⟨Command.loadError error, fun i hpath hformat => ?_⟩
      simp only [run, hpath, hformat, hload, hlog]
  | ok config =>
    cases hlog : Command.checkLogFormat (logFormat.getD config.observability.logFormat) with
    | error error' =>
      refine ⟨error', fun i hpath hformat => ?_⟩
      simp only [run, hpath, hformat, hload, hlog]
    | ok =>
      rw [Command.checkLogFormat, h config hload] at hlog
      cases hlog

end Invocation

namespace CommandLine

variable {file text : String} {arguments rest : List String} {files : Files}
  {environment : Environment} {level next : Level} {given : Given}

/-! ## The question -/

/-- The words ask for the verdict on a file and give no option. Before a file whose name could be an
option stands `--`. -/
inductive AsksAbout (file : String) : List String → Prop
  | plain : file ≠ "" → looksLikeOption file = false → AsksAbout file ["config", "validate", file]
  | afterDashes : file ≠ "" → AsksAbout file ["config", "validate", "--", file]

theorem Word.of_eq_plain (h : looksLikeOption text = false) : Word.of level text = .plain := by
  rw [looksLikeOption] at h
  rw [Word.of]
  split
  · next htext =>
    rw [htext] at h
    cases h
  · next htext =>
    rw [htext] at h
    cases h
  · next htext =>
    rw [htext] at h
    cases h
  · rfl

/-- A word that leads on ends a level. -/
theorem readLevel_next (hword : looksLikeOption text = false)
    (hnext : level.next? text = some next) :
    readLevel level given (text :: rest) = .ok (given, some (next, rest)) := by
  rw [readLevel, Word.of_eq_plain hword]
  simp only [hnext]

/-- A file has been given, and nothing else. -/
def Given.ofFile (file : String) : Given := { Given.nothing with file := file }

theorem giveFile?_nothing (hfile : file ≠ "") :
    giveFile? .validateConfig file .nothing = some (Given.ofFile file) := by
  have hsome : (!file.isEmpty) = true := by
    rw [Bool.not_eq_true', ← Bool.not_eq_true, String.isEmpty_iff]
    exact hfile
  exact if_pos ⟨rfl, rfl, hsome⟩

/-- A word that is no option and leads nowhere is the file. -/
theorem readLevel_file (hfile : file ≠ "") (hword : looksLikeOption file = false) :
    readLevel .validateConfig .nothing [file] =
      .ok (Given.ofFile file, none) := by
  have hnext : Level.next? .validateConfig file = none := rfl
  have hhelp : ¬ (file = "help" ∧ Level.isOpen .validateConfig = true) := fun h => nomatch h.2
  rw [readLevel, Word.of_eq_plain hword]
  simp only [hnext, if_neg hhelp, giveFile?_nothing hfile]
  rw [readLevel]

/-- After two hyphens every word is a file. -/
theorem readLevel_dashes (hfile : file ≠ "") :
    readLevel .validateConfig .nothing ["--", file] =
      .ok (Given.ofFile file, none) := by
  have hdashes : Word.of .validateConfig "--" = .onlyFiles := by decide
  rw [readLevel, hdashes]
  simp only [List.foldlM_cons, List.foldlM_nil, giveFile?_nothing hfile]
  rfl

theorem readFrom_of_asksAbout (h : AsksAbout file arguments) :
    readFrom 3 .program arguments = .ok ([.nothing, .nothing, Given.ofFile file],
      some (.validateConfig file)) := by
  have hlast {words : List String}
      (h : readLevel .validateConfig .nothing words =
        .ok (Given.ofFile file, none)) :
      readFrom 3 .program ("config" :: "validate" :: words) =
        .ok ([.nothing, .nothing, Given.ofFile file],
          some (.validateConfig file)) := by
    have hconfig : readLevel .program .nothing ("config" :: "validate" :: words) =
      .ok (.nothing, some (.config, "validate" :: words)) := readLevel_next (by decide) (by decide)
    have hvalidate : readLevel .config .nothing ("validate" :: words) =
      .ok (.nothing, some (.validateConfig, words)) := readLevel_next (by decide) (by decide)
    simp only [readFrom, hconfig, hvalidate, h, reduceCtorEq, if_false]
    rfl
  cases h with
  | plain hfile hword => exact hlast (readLevel_file hfile hword)
  | afterDashes hfile => exact hlast (readLevel_dashes hfile)

/-- What a run that is asked about a file is given by the environment. -/
def asked (environment : Environment) (file : String) : Invocation where
  config := environment.value? ServiceConfig.pathVariable
  logLevel := environment.value? logLevelVariable
  logFormat := environment.value? logFormatVariable
  command := some (.validateConfig file)

theorem read_of_asksAbout (h : AsksAbout file arguments) :
    Invocation.read environment arguments =
      if environment.value? ServiceConfig.pathVariable = some "" then .error .wrong
      else .ok (asked environment file) := by
  rw [Invocation.read, readFrom_of_asksAbout h]
  exact ite_congr (propext (and_iff_left rfl)) (fun _ => rfl) (fun _ => rfl)

/-! ## What comes before a command -/

/-- The program comes to its command: the path of its configuration is not empty, the configuration
can be loaded, and the format of the log is known. -/
structure ComesToCommand (files : Files) (environment : Environment) : Prop where
  path : environment.value? ServiceConfig.pathVariable ≠ some ""
  config : ∃ origin,
    ServiceConfig.IsOrigin files environment (environment.value? ServiceConfig.pathVariable)
      origin ∧
    ServiceConfig.isLogFormat
      ((environment.value? logFormatVariable).getD origin.observability.logFormat) = true

/-- A run that is asked about a file and comes to its command tells the verdict. -/
theorem run_of_comesToCommand (h : AsksAbout file arguments)
    (hcomes : ComesToCommand files (environmentOf files environment)) :
    run files environment arguments =
      (Command.verdict files (environmentOf files environment) (some file)).output := by
  obtain ⟨origin, horigin, hformat⟩ := hcomes.config
  have hload := ServiceConfig.load_eq_ok.2 ⟨origin, horigin, rfl⟩
  have hcommand : (asked (environmentOf files environment) file).command =
    some (.validateConfig file) := rfl
  rw [run, read_of_asksAbout h, if_neg hcomes.path]
  exact Invocation.run_of_isLogFormat hcommand hload hformat

/-- A run that does not come to its command fails, whatever file it is asked about. -/
theorem exists_run_eq_output
    (hcomes : ¬ ComesToCommand files (environmentOf files environment)) :
    ∃ output : Output, output.exit ≠ 0 ∧ ∀ file arguments, AsksAbout file arguments →
      run files environment arguments = output := by
  by_cases hpath : (environmentOf files environment).value? ServiceConfig.pathVariable = some ""
  · refine ⟨Usage.wrong.output, by decide, fun file arguments h => ?_⟩
    rw [run, read_of_asksAbout h, if_pos hpath]
  · obtain ⟨error, herror⟩ := Invocation.exists_run_eq_error fun config hload => by
      obtain ⟨origin, horigin, rfl⟩ := ServiceConfig.load_eq_ok.1 hload
      exact Bool.eq_false_iff.2 fun hformat => hcomes ⟨hpath, origin, horigin, hformat⟩
    refine ⟨Ending.output ⟨"", some error⟩, nofun, fun file arguments h => ?_⟩
    rw [run, read_of_asksAbout h, if_neg hpath]
    exact herror (asked _ file) rfl rfl

/-- Where the environment says nothing of it, the program comes to its command unless the
configuration that it finds cannot be read, is none, or has an unknown format for the log. -/
theorem comesToCommand_iff (hpath : environment.value? ServiceConfig.pathVariable = none)
    (hformat : environment.value? logFormatVariable = none) :
    ComesToCommand files environment ↔
      ∀ path, ServiceConfig.discover files environment = some path →
        ∃ config, files.Holds path config ∧
          ServiceConfig.isLogFormat config.observability.logFormat = true := by
  constructor
  · rintro ⟨-, origin, horigin, hknown⟩ path hfound
    rw [hpath] at horigin
    rw [hformat] at hknown
    cases horigin with
    | found hfound' hholds =>
      obtain rfl := Option.some.inj (hfound.symm.trans hfound')
      exact ⟨origin, hholds, hknown⟩
    | none hnone => cases hfound.symm.trans hnone
  · intro h
    refine ⟨by rw [hpath]; exact nofun, ?_⟩
    rw [hpath, hformat]
    cases hfound : ServiceConfig.discover files environment with
    | none => exact ⟨_, .none hfound, rfl⟩
    | some path =>
      obtain ⟨config, hholds, hknown⟩ := h path hfound
      exact ⟨config, .found hfound hholds, hknown⟩

/-! ## The verdict -/

theorem loadChecked_eq_ok : Command.loadChecked files environment (some file) = .ok () ↔
    files.HoldsValid environment file := by
  constructor
  · intro h
    rw [Command.loadChecked] at h
    cases hload : ServiceConfig.load files environment (some file) with
    | error error =>
      rw [hload] at h
      cases h
    | ok config =>
      rw [hload] at h
      obtain ⟨origin, horigin, rfl⟩ := ServiceConfig.load_eq_ok.1 hload
      cases horigin with
      | named hholds => exact ⟨origin, hholds, Command.checkConfig_eq_ok.1 h⟩
  · rintro ⟨config, hholds, hvalid⟩
    have horigin : ServiceConfig.IsOrigin files environment (some file) config := .named hholds
    have hload := ServiceConfig.load_eq_ok.2 ⟨config, horigin, rfl⟩
    rw [Command.loadChecked, hload]
    exact Command.checkConfig_eq_ok.2 hvalid

theorem exit_verdict_eq_zero :
    (Command.verdict files environment (some file)).output.exit = 0 ↔
      files.HoldsValid environment file := by
  rw [← loadChecked_eq_ok, Command.verdict]
  cases Command.loadChecked files environment (some file) with
  | error error => exact ⟨nofun, nofun⟩
  | ok => exact ⟨fun _ => rfl, fun _ => rfl⟩

/-- Of all files the verdict depends on the one that is asked about. -/
theorem verdict_congr {files' : Files} (h : files' file = files file) :
    Command.verdict files' environment (some file) =
      Command.verdict files environment (some file) := by
  have hload : ServiceConfig.load files' environment (some file) =
      ServiceConfig.load files environment (some file) := by
    simp only [ServiceConfig.load, h]
  simp only [Command.verdict, Command.loadChecked, hload]

/-- What comes of a run that asks for the verdict on a file. -/
structure TellsVerdict (file : String) (arguments : List String) (files : Files)
    (environment : Environment) : Prop where
  /-- It ends with zero exactly if the program comes to its command and the file is valid. -/
  exit : (run files environment arguments).exit = 0 ↔
    ComesToCommand files (environmentOf files environment) ∧
      files.HoldsValid (environmentOf files environment) file
  /-- Where the environment names neither a configuration nor a format of the log, the program comes
  to its command unless the configuration that it finds cannot be read, is none, or asks for an
  unknown format of the log. -/
  found : (environmentOf files environment).value? ServiceConfig.pathVariable = none →
    (environmentOf files environment).value? logFormatVariable = none →
    (ComesToCommand files (environmentOf files environment) ↔
      ∀ path, ServiceConfig.discover files (environmentOf files environment) = some path →
        ∃ config, files.Holds path config ∧
          ServiceConfig.isLogFormat config.observability.logFormat = true)
  /-- As long as the program comes to its command, what it leaves behind depends on no other file
  than the one it is asked about. -/
  alone : ∀ files', files' environmentFile = files environmentFile → files' file = files file →
    ComesToCommand files (environmentOf files environment) →
    ComesToCommand files' (environmentOf files environment) →
    run files' environment arguments = run files environment arguments
  /-- If it does not come to its command, what it leaves behind does not depend on the file that it
  is asked about. -/
  blind : ¬ ComesToCommand files (environmentOf files environment) →
    ∀ file' arguments', AsksAbout file' arguments' →
      run files environment arguments' = run files environment arguments

/-- A run that is asked about a valid file ends with zero only if the configuration that the program
finds for itself lets it come to its command. -/
theorem verdict_on_file_iff (h : AsksAbout file arguments) :
    TellsVerdict file arguments files environment := by
  refine ⟨?_, comesToCommand_iff, fun files' hvariables hfile hcomes hcomes' => ?_,
    fun hcomes file' arguments' h' => ?_⟩
  · by_cases hcomes : ComesToCommand files (environmentOf files environment)
    · rw [run_of_comesToCommand h hcomes, exit_verdict_eq_zero, and_iff_right hcomes]
    · obtain ⟨output, hexit, hrun⟩ := exists_run_eq_output hcomes
      rw [hrun file arguments h]
      exact iff_of_false hexit fun hboth => hcomes hboth.1
  · have henvironment : environmentOf files' environment = environmentOf files environment := by
      rw [environmentOf, environmentOf, hvariables]
    rw [run_of_comesToCommand h hcomes, run_of_comesToCommand h (henvironment ▸ hcomes'),
      henvironment, verdict_congr hfile]
  · obtain ⟨output, -, hrun⟩ := exists_run_eq_output hcomes
    rw [hrun file arguments h, hrun file' arguments' h']

/-- The text of a configuration with one section. -/
def manifest (part : String) : String :=
  "apiVersion: agent-monitor/v1\nkind: MonitorServiceConfig\nmetadata:\n  name: care\nspec:\n  "
    ++ part ++ "\n"

/-- Of a file that is valid because of what the environment overrides. The verdict on it is another
one if a configuration in the usual place asks for an unknown format of the log. -/
theorem verdict_on_file_iff_otherFormat :
    let file := ("care.yaml", manifest "scheduler:\n    poll_interval_seconds: 0")
    let other := ("monitor-config.yaml", manifest "observability:\n    log_format: pretty")
    let alone := Folder.read (Folder.ofFiles [file])
    let both := Folder.read (Folder.ofFiles [file, other])
    let environment := [(ServiceConfig.intervalVariable, "30")]
    let arguments := ["config", "validate", "care.yaml"]
    AsksAbout "care.yaml" arguments ∧ TellsVerdict "care.yaml" arguments both environment ∧
      both.HoldsValid environment "care.yaml" ∧ (run both environment arguments).exit = 1 ∧
      (run alone environment arguments).exit = 0 := by
  intro file other alone both environment arguments
  have hasks : AsksAbout "care.yaml" arguments := .plain (by decide) (by decide)
  exact ⟨hasks, verdict_on_file_iff hasks, exit_verdict_eq_zero.1 (by decide +kernel),
    by decide +kernel, by decide +kernel⟩

end CommandLine

end TraceWatch

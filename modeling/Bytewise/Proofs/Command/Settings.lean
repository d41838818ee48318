import Bytewise.Package.Standard
import Bytewise.Proofs.Command.Start
import Bytewise.Proofs.Settings.Reporting

/-!
# Programs and invalid settings

A program whose command line is understood loads its settings before anything else, and then there
are three ways for it to go on (`Program.Works`, `Program.Reports`, `Program.Raises`): it comes to
its work, it reports why the settings cannot be loaded and exits with status 2, or it ends by a
fault that nobody reports. The last is not meant to happen. It happens for the settings files that
loading does not report, and besides for settings from which the log cannot be set up, because that
is done with what is loaded and outside of the report (`invalid_settings_reported_iff`).

This is the same for every tool, standing alone or run by the umbrella program, and in every
environment.
-/

namespace Bytewise

/-! ## Tools as programs of one kind -/

namespace Tool

/-- The options of a tool's own. -/
def Key : Tool → Type
  | .checksum => ChecksumProgram.Key
  | .wordCount => Empty
  | .lineDiff => LineDiffProgram.Key
  | .dump => DumpProgram.Key
  | .survey => SurveyProgram.Key

instance : (tool : Tool) → DecidableEq tool.Key
  | .checksum => inferInstanceAs (DecidableEq ChecksumProgram.Key)
  | .wordCount => inferInstanceAs (DecidableEq Empty)
  | .lineDiff => inferInstanceAs (DecidableEq LineDiffProgram.Key)
  | .dump => inferInstanceAs (DecidableEq DumpProgram.Key)
  | .survey => inferInstanceAs (DecidableEq SurveyProgram.Key)

def rules : (tool : Tool) → List (OptionRule tool.Key)
  | .checksum => ChecksumProgram.rules
  | .wordCount => WordCountProgram.rules
  | .lineDiff => LineDiffProgram.rules
  | .dump => DumpProgram.rules
  | .survey => SurveyProgram.rules

/-- What is left of a tool behind the stages that all tools have. -/
def IsWork (tool : Tool) (around : Surroundings)
    (work : Arguments (OptionKey tool.Key) × Settings → Run Unit) : Prop :=
  ∀ above args,
    tool.launch around above args = Run.start tool.name tool.rules around above args >>= work

theorem exists_isWork (tool : Tool) (around : Surroundings) : ∃ work, tool.IsWork around work := by
  cases tool <;> exact ⟨_, fun _ _ => rfl⟩

end Tool

/-! ## The stage of the settings -/

namespace Run

variable {program : Text} {around : Surroundings} {file : Option Text} {verbose : Bool}
  {settings : Settings} {fault : Fault}

/-- Load settings, from a file that may be named, and set the log up. -/
def openSettings (program : Text) (around : Surroundings) (file : Option Text) (verbose : Bool) :
    Run Settings :=
  match around.load file with
  | .ok settings => do
    openLog settings verbose
    return settings
  | .error fault =>
    if isSettingsFault fault then do
      complain program fault.message
      exit 2
    else throw (.raised fault)

theorem loadSettings_eq_openSettings {α : Type} [DecidableEq α] (program : Text)
    (around : Surroundings) (a : Arguments (OptionKey α)) :
    loadSettings program around a = openSettings program around (settingsFile a) (a.has .verbose) :=
  rfl

theorem run_openSettings {log : LogSettings} (loaded : around.load file = .ok settings)
    (opened : LogSettings.ofSettings settings verbose = .ok log) (s : Session) :
    (openSettings program around file verbose).run.run s =
      (.ok settings, { s with log := log }) := by
  rw [openSettings, loaded]
  dsimp only
  rw [openLog, opened]
  rfl

theorem run_openSettings_unlogged (loaded : around.load file = .ok settings)
    (refused : LogSettings.ofSettings settings verbose = .error fault) (s : Session) :
    (openSettings program around file verbose).run.run s = (.error (.raised fault), s) := by
  rw [openSettings, loaded]
  dsimp only
  rw [openLog, refused]
  rfl

theorem run_openSettings_reported (failed : around.load file = .error fault)
    (reported : isSettingsFault fault = true) (s : Session) :
    (openSettings program around file verbose).run.run s = (.error (.exit 2), { s with
      err := s.err.write (s.terminal.errorLine program fault.message).encodeShown }) := by
  rw [openSettings, failed]
  dsimp only
  rw [if_pos reported]
  rfl

theorem run_openSettings_unreported (failed : around.load file = .error fault)
    (unreported : isSettingsFault fault = false) (s : Session) :
    (openSettings program around file verbose).run.run s = (.error (.raised fault), s) := by
  rw [openSettings, failed]
  dsimp only
  rw [if_neg (by simp [unreported])]
  rfl

end Run

/-! ## Programs -/

namespace Program

/-- A command line that a program takes: the name that it reports under, the settings file that is
asked for, whether the log is to show everything, and the work to be done with the settings. -/
inductive Takes (around : Surroundings) :
    Program → List Text → Text → Option Text → Bool → (Settings → Run Unit) → Prop where
  | tool {tool : Tool} {args : List Text} {a : Arguments (OptionKey tool.Key)}
      {work : Arguments (OptionKey tool.Key) × Settings → Run Unit}
      (understood : Understood tool.rules true around args a) (works : tool.IsWork around work) :
      Takes around (.tool tool) args tool.name (settingsFile a) (a.has .verbose)
        fun settings => work (a, settings)
  | umbrella {args : List Text} {a : Arguments (OptionKey Empty)} {tool : Tool} {rest : List Text}
      (understood : Understood Umbrella.rules false around args a) (given : args ≠ [])
      (selected : a.operands = tool.name :: rest) :
      Takes around .umbrella args Umbrella.program (settingsFile a) (a.has .verbose)
        fun settings => tool.launch around (some settings) rest

/-- A program comes to its work with the settings that are loaded. -/
def Works (p : Program) (around : Surroundings) (args : List Text) (file : Option Text)
    (verbose : Bool) (work : Settings → Run Unit) : Prop :=
  ∃ settings log, around.load file = .ok settings ∧
    LogSettings.ofSettings settings verbose = .ok log ∧
    ∀ stdin, (p.launch around args).run.run (around.session stdin) =
      (work settings).run.run { around.session stdin with log := log }

/-- A program reports why settings cannot be loaded, and exits with status 2. -/
def Reports (p : Program) (around : Surroundings) (args : List Text) (program : Text)
    (file : Option Text) : Prop :=
  ∃ fault, around.load file = .error fault ∧
    ∀ stdin, p.run around stdin args =
      ⟨[], (around.packages.terminal.errorLine program fault.message).encodeShown, .exit 2⟩

/-- A program ends by a fault that it does not handle, before its work and without a message. -/
def Raises (p : Program) (around : Surroundings) (args : List Text) : Prop :=
  ∃ fault, ∀ stdin, p.run around stdin args = ⟨[], [], .raised fault⟩

variable {p : Program} {around : Surroundings} {args : List Text} {program : Text}
  {file : Option Text} {verbose : Bool} {work : Settings → Run Unit}

theorem Takes.launch_eq (takes : p.Takes around args program file verbose work) :
    p.launch around args = Run.openSettings program around file verbose >>= work := by
  cases takes with
  | @tool tool args a work understood works =>
      have alone : Run.start tool.name tool.rules around none args =
          Run.loadSettings tool.name around a >>= fun settings => pure (a, settings) := by
        rw [Run.start, Run.understood_eq tool.name ⟨_, _, args⟩ understood]
        rfl
      have started := works none args
      rw [alone, bind_assoc] at started
      simp only [pure_bind, Run.loadSettings_eq_openSettings] at started
      exact started
  | umbrella understood given selected => exact Umbrella.launch_eq understood given selected

theorem Takes.works (takes : p.Takes around args program file verbose work) {settings : Settings}
    {log : LogSettings} (loaded : around.load file = .ok settings)
    (opened : LogSettings.ofSettings settings verbose = .ok log) :
    p.Works around args file verbose work := by
  refine ⟨settings, log, loaded, opened, fun stdin => ?_⟩
  rw [takes.launch_eq, Run.run_bind, Run.run_openSettings loaded opened]

theorem Takes.reports (takes : p.Takes around args program file verbose work) {fault : Fault}
    (failed : around.load file = .error fault)
    (reported : Run.isSettingsFault fault = true) : p.Reports around args program file := by
  refine ⟨fault, failed, fun stdin => ?_⟩
  rw [run, takes.launch_eq, Run.run_bind, Run.run_openSettings_reported failed reported]
  simp [Surroundings.session, Channel.bytes, Channel.write]

theorem Takes.raises (takes : p.Takes around args program file verbose work) {fault : Fault}
    (raised : ∀ s, (Run.openSettings program around file verbose).run.run s =
      (.error (.raised fault), s)) : p.Raises around args := by
  refine ⟨fault, fun stdin => ?_⟩
  rw [run, takes.launch_eq, Run.run_bind, raised]
  rfl

/-- What loading the settings comes to decides how a program goes on. -/
theorem Takes.settles (takes : p.Takes around args program file verbose work) :
    ((p.Works around args file verbose work ∨ p.Reports around args program file) ↔
      Settings.Reported (around.load file) ∧
        ∀ settings, around.load file = .ok settings →
          ∃ log, LogSettings.ofSettings settings verbose = .ok log) ∧
      (p.Works around args file verbose work ∨ p.Reports around args program file ∨
        p.Raises around args) := by
  cases loaded : around.load file with
  | ok settings =>
      cases opened : LogSettings.ofSettings settings verbose with
      | ok log =>
          have works := takes.works loaded opened
          refine ⟨iff_of_true (.inl works) ⟨.inl ⟨settings, rfl⟩, ?_⟩, .inl works⟩
          rintro _ ⟨⟩
          exact ⟨log, opened⟩
      | error fault =>
          have raises := takes.raises (Run.run_openSettings_unlogged loaded opened)
          refine ⟨iff_of_false ?_ fun ⟨_, logged⟩ => ?_, .inr (.inr raises)⟩
          · rintro (⟨_, _, loaded', opened', _⟩ | ⟨_, failed, _⟩)
            · cases loaded.symm.trans loaded'
              cases opened.symm.trans opened'
            · cases loaded.symm.trans failed
          · obtain ⟨log, opened'⟩ := logged settings rfl
            cases opened.symm.trans opened'
  | error fault =>
      cases reported : Run.isSettingsFault fault with
      | true =>
          have reports := takes.reports loaded reported
          exact ⟨iff_of_true (.inr reports) ⟨.inr ⟨fault, rfl, reported⟩, nofun⟩,
            .inr (.inl reports)⟩
      | false =>
          have raises := takes.raises (Run.run_openSettings_unreported loaded reported)
          refine ⟨iff_of_false ?_ fun ⟨known, _⟩ => ?_, .inr (.inr raises)⟩
          · rintro (⟨_, _, loaded', _⟩ | ⟨_, _, exits⟩)
            · cases loaded.symm.trans loaded'
            · obtain ⟨_, ends⟩ := raises
              have same := (exits (.ofBytes [])).symm.trans (ends (.ofBytes []))
              cases congrArg Outcome.ending same
          · obtain ⟨_, loaded'⟩ | ⟨_, failed, reported'⟩ := known
            · cases loaded'
            · cases failed
              cases reported.symm.trans reported'

end Program

open Program in
/-- Invalid settings are reported, but for what goes unreported. For a file whose text can be read
in the format that its suffix names, loading gives settings or a fault that is reported exactly if
the text is not one that goes unreported, whatever the environment is. A program that is to use the
file then comes to its work, or reports the fault and exits with status 2, exactly if besides the
log can be set up from what is loaded; otherwise it ends by a fault, without a message. -/
theorem invalid_settings_reported_iff (packages : Packages) {t : FileTree} {name : Text}
    {cs : List Char} {format : Settings.Format}
    (text : t.readText (Path.ofText name).toText = .ok cs)
    (named : Settings.formatOf (Path.ofText name).suffix = .ok format) :
    (∀ env given useEnvironment, Settings.fileName env given useEnvironment = some name →
      (Settings.Reported (Settings.load packages.yaml t env given useEnvironment) ↔
        ¬ Settings.Unreported packages.yaml format cs)) ∧
    (∀ env p args program file verbose work,
      Takes ⟨packages, t, env⟩ p args program file verbose work →
      Settings.fileName env file true = some name →
      ((p.Works ⟨packages, t, env⟩ args file verbose work ∨
          p.Reports ⟨packages, t, env⟩ args program file) ↔
        ¬ Settings.Unreported packages.yaml format cs ∧
        ∀ settings, Settings.load packages.yaml t env file true = .ok settings →
          ∃ log, LogSettings.ofSettings settings verbose = .ok log) ∧
      (p.Works ⟨packages, t, env⟩ args file verbose work ∨
        p.Reports ⟨packages, t, env⟩ args program file ∨ p.Raises ⟨packages, t, env⟩ args)) := by
  refine ⟨fun env given useEnvironment asked => Settings.reported_iff asked text named, ?_⟩
  intro env p args program file verbose work takes asked
  rw [← Settings.reported_iff asked text named]
  exact takes.settles

/-! ## Two settings files -/

def settingsTree (entries : List (Value × Value)) : FileTree :=
  [("c.json", .file {} (Text.ofChars (Json.document (.map entries))).encode)]

variable {entries : List (Value × Value)}

theorem readText_settingsTree (isJson : (Value.map entries).IsJson) :
    (settingsTree entries).readText (Path.ofText "c.json").toText =
      .ok (Json.document (.map entries)) := by
  have opened (data : Bytes) :
      FileTree.openRaw [("c.json", .file {} data)] (Path.ofText "c.json").toText = .ok data := by
    cbv
  exact FileTree.readText_of_openRaw (opened _) (Json.return_not_mem_writeAt isJson 0)

theorem formatOf_settingsTree : Settings.formatOf (Path.ofText "c.json").suffix = .ok .json := by
  cbv

/-- Loading the settings of the file comes to what its sections come to. -/
theorem ofFile_settingsTree (isJson : (Value.map entries).IsJson) :
    Settings.ofFile .standard (settingsTree entries) (Path.ofText "c.json") =
      Settings.ofMap entries := by
  rw [Settings.ofFile_eq (readText_settingsTree isJson) formatOf_settingsTree,
    Settings.readDocument_json isJson]

/-- A command line that asks for nothing but the settings file is understood. -/
theorem understood_settingsTree (entries : List (Value × Value)) (env : Environment) :
    Understood (Tool.rules .checksum) true ⟨.standard, settingsTree entries, env⟩
      ["--config", "c.json"] ⟨[(.config, some "c.json")], []⟩ where
  read := rfl
  no_version := rfl
  no_help := rfl
  accepted := by
    have readable : ValueForm.path.check (settingsTree entries) "c.json" = .ok () := by
      have found (data : Bytes) :
          FileTree.find [("c.json", .file {} data)] "c.json" = .ok (.file {} data) := by
        cbv
      rw [ValueForm.check, settingsTree, found]
      rfl
    have forms : ∀ rule ∈ allRules (Tool.rules .checksum),
        rule.key = .config → rule.form = .path := by
      decide
    intro rule member value given
    have same : rule.key = .config ∧ value = "c.json" := by
      have taken := List.mem_of_getLast? given
      rw [Arguments.values, List.mem_filterMap] at taken
      obtain ⟨option, asked, isValue⟩ := taken
      obtain rfl := List.mem_singleton.mp asked
      dsimp only at isValue
      split at isValue
      next key => exact ⟨key.symm, (Option.some.inj isValue).symm⟩
      next => cases isValue
    rw [forms rule member same.1, same.2]
    exact readable

/-- The command line of a tool that asks for the settings file. -/
theorem takes_settingsTree (entries : List (Value × Value)) (env : Environment) :
    ∃ work, Program.Takes ⟨.standard, settingsTree entries, env⟩ (.tool .checksum)
      ["--config", "c.json"] "checksum" (some "c.json") false work := by
  obtain ⟨work, works⟩ := Tool.exists_isWork .checksum ⟨.standard, settingsTree entries, env⟩
  exact ⟨_, .tool (understood_settingsTree entries env) works⟩

theorem load_settingsTree {env : Environment} {given : Option Text}
    (asked : Settings.fileName env given true = some (Text.ofString "c.json"))
    (isJson : (Value.map entries).IsJson) {f : Fault}
    (refused : Settings.ofMap entries = .error f) :
    Settings.load .standard (settingsTree entries) env given true = .error f := by
  rw [Settings.load, asked]
  dsimp only
  rw [ofFile_settingsTree isJson, refused]
  rfl

theorem unreported_settingsTree_iff (isJson : (Value.map entries).IsJson) :
    Settings.Unreported .standard .json (Json.document (.map entries)) ↔
      Settings.ofMap entries = .error .wrongKind := by
  rw [Settings.Unreported, Settings.readDocument_json isJson, Settings.ofMap_eq_wrongKind_iff]
  simp

theorem isJson_section {v : Value} (heading : String) (isJson : v.IsJson) :
    (Value.map [(.text (Text.ofString heading), v)]).IsJson := by
  refine .map ?_ (by simp) ?_
  · exact List.forall_mem_singleton.mpr ⟨_, Text.printable_ofChars _, rfl⟩
  · exact List.forall_mem_singleton.mpr isJson

theorem isJson_one : (Value.int 1).IsJson := .int (Numeral.isShort_iff.mpr (by decide))

/-- A key that a section does not have is reported. -/
theorem invalid_settings_reported_iff_unknownKey :
    let t := settingsTree [("cloc", .map [("x", .int 1)])]
    Settings.Reported (Settings.load .standard t [] (some "c.json") true) ∧
      (Program.tool .checksum).Reports ⟨.standard, t, []⟩ ["--config", "c.json"] "checksum"
        (some "c.json") := by
  intro t
  have isJson := isJson_section "cloc" (isJson_section "x" isJson_one)
  have refused : Settings.ofMap [("cloc", .map [("x", .int 1)])] =
    .error (.unknownKeys "cloc" ["x"]) := by cbv
  have failed : Settings.load .standard t [] (some "c.json") true = _ :=
    load_settingsTree rfl isJson refused
  have known := (unreported_settingsTree_iff isJson).not.mpr fun odd => by
    cases refused.symm.trans odd
  obtain ⟨loading, running⟩ :=
    invalid_settings_reported_iff .standard (readText_settingsTree isJson) formatOf_settingsTree
  refine ⟨(loading [] (some "c.json") true rfl).mpr known, ?_⟩
  obtain ⟨work, takes⟩ := takes_settingsTree [("cloc", .map [("x", .int 1)])] []
  have logged settings (loaded : Settings.load .standard t [] (some "c.json") true = .ok settings) :
      ∃ log, LogSettings.ofSettings settings false = .ok log := by
    cases failed.symm.trans loaded
  obtain ⟨_, _, loaded, _⟩ | reports :=
    (running [] _ _ _ _ _ _ takes rfl).1.mpr ⟨known, logged⟩
  · cases failed.symm.trans loaded
  · exact reports

/-- A number where a section should be is no fault that loading reports, and ends a program without
a message. -/
theorem number_section_unreported :
    let t := settingsTree [("cloc", .int 1)]
    Settings.load .standard t [] (some "c.json") true = .error .wrongKind ∧
      Run.isSettingsFault .wrongKind = false ∧
      ∀ stdin, (Program.tool .checksum).run ⟨.standard, t, []⟩ stdin ["--config", "c.json"] =
        ⟨[], [], .raised .wrongKind⟩ := by
  intro t
  have isJson := isJson_section "cloc" isJson_one
  have failed : Settings.load .standard t [] (some "c.json") true = .error .wrongKind :=
    load_settingsTree rfl isJson rfl
  refine ⟨failed, rfl, fun stdin => ?_⟩
  obtain ⟨work, takes⟩ := takes_settingsTree [("cloc", .int 1)] []
  have unloaded : Surroundings.load ⟨.standard, t, []⟩ (some "c.json") = .error .wrongKind := failed
  rw [Program.run, takes.launch_eq, Run.run_bind, Run.run_openSettings_unreported unloaded rfl]
  rfl

end Bytewise

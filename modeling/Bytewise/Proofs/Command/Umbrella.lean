import Bytewise.Proofs.Command.Channels
import Bytewise.Proofs.Command.Settings
import Bytewise.Proofs.FileTree.Names
import Bytewise.Proofs.Package.CommandLine

/-!
# Tools alone and below the umbrella program

The umbrella program loads settings before it looks at the command line of a tool, and a tool alone
loads them afterwards. Where they can be loaded this makes no difference to what is printed and to
the exit status: before its settings a tool neither looks at the log nor sets it up (`Run.LogFree`),
and behind them it has the same settings and the same log in both ways of running it
(`Run.outcome_start_bind`). A command line that is refused is refused in both ways, in words that
may differ (`Run.understand_cases`).

Where the settings cannot be used, the umbrella program ends whatever the tool is asked for. The
tool alone comes to the same end, unless its own command line is answered or refused first, or has
it use other settings (`umbrella_runs_tool`).
-/

namespace Bytewise

namespace Run

variable {α β : Type} {m : Run α} {f : α → Run β} {s : Session} {log : LogSettings}

/-! ## Parts that leave the log alone -/

/-- A part of a program that neither looks at the log nor sets it up. -/
def LogFree (m : Run α) : Prop :=
  ∀ s log, m.run.run { s with log := log } =
    ((m.run.run s).1, { (m.run.run s).2 with log := log })

theorem logFree_pure (a : α) : LogFree (pure a) := fun _ _ => rfl

theorem logFree_throw (halt : Halt) : LogFree (throw halt : Run α) := fun _ _ => rfl

theorem LogFree.bind (first : LogFree m) (next : ∀ a, LogFree (f a)) : LogFree (m >>= f) := by
  intro s log
  rw [run_bind, run_bind, first]
  rcases m.run.run s with ⟨_ | a, s'⟩
  · rfl
  · exact next a s' log

theorem logFree_forM {f : α → Run Unit} (each : ∀ a, LogFree (f a)) (as : List α) :
    LogFree (as.forM f) := by
  induction as with
  | nil => exact logFree_pure ()
  | cons a as ih => exact (each a).bind fun _ => ih

theorem logFree_echo (t : Text) : LogFree (echo t) := by
  rw [echo, print, write]
  split
  · exact fun _ _ => rfl
  · exact logFree_throw _

theorem logFree_refuse (around : Surroundings) (command : Invocation) (fault : UsageFault) :
    LogFree (refuse around command fault : Run α) := fun _ _ => rfl

theorem logFree_readArguments (around : Surroundings) (command : Invocation)
    (own : List (OptionRule α)) (mixed : Bool) :
    LogFree (readArguments around command own mixed) := by
  rw [readArguments]
  split
  · exact logFree_pure _
  · exact logFree_refuse around command _

variable [DecidableEq α] {own : List (OptionRule α)} {around : Surroundings} {args : List Text}
  {a : Arguments (OptionKey α)} {settings : Settings}

theorem logFree_answerQuestions (program : Text) (a : Arguments (OptionKey α)) :
    LogFree (answerQuestions program a) := by
  rw [answerQuestions]
  split
  · exact (logFree_echo _).bind fun _ => logFree_throw _
  · exact (logFree_echo _).bind fun _ => logFree_throw _
  · exact logFree_pure ()

theorem logFree_checkValues (around : Surroundings) (command : Invocation)
    (own : List (OptionRule α)) (a : Arguments (OptionKey α)) :
    LogFree (checkValues around command own a) := by
  rw [checkValues]
  refine logFree_forM (fun key => ?_) _
  split
  · split
    · exact logFree_pure ()
    · exact logFree_refuse around command _
    · exact logFree_throw _
  · exact logFree_pure ()

/-! ## The stages of a tool -/

/-- The stages of a program before its settings. -/
def understand (around : Surroundings) (command : Invocation) (own : List (OptionRule α)) :
    Run (Arguments (OptionKey α)) := do
  let a ← readArguments around command own true
  answerQuestions command.program a
  checkValues around command own a
  return a

theorem start_eq (program : Text) (own : List (OptionRule α)) (around : Surroundings)
    (above : Option Settings) (args : List Text) :
    start program own around above args =
      understand around ⟨program, above.isSome, args⟩ own >>= fun a =>
        resolveSettings program around above a >>= fun settings => pure (a, settings) := by
  simp only [start, understand, bind_assoc, pure_bind]

theorem logFree_understand (around : Surroundings) (command : Invocation)
    (own : List (OptionRule α)) : LogFree (understand around command own) :=
  (logFree_readArguments around command own true).bind fun a =>
    (logFree_answerQuestions command.program a).bind fun _ =>
      (logFree_checkValues around command own a).bind fun _ => logFree_pure a

/-! ## Command lines that end a program -/

omit [DecidableEq α] in
theorem exit_bind {β : Type} (status : Nat) (f : α → Run β) :
    (exit status : Run α) >>= f = exit status := rfl

/-- A question about the program itself ends it. -/
theorem answerQuestions_cases (program : Text) (a : Arguments (OptionKey α)) :
    answerQuestions program a = pure () ∨ ∀ {β : Type} (f g : Unit → Run β),
      answerQuestions program a >>= f = answerQuestions program a >>= g := by
  rw [answerQuestions]
  split
  · exact .inr fun f g => by simp only [bind_assoc, exit_bind]
  · exact .inr fun f g => by simp only [bind_assoc, exit_bind]
  · exact .inl rfl

/-- The values of options are all admitted, or one of them is not: then it is refused with the
command line, or ends the program. -/
theorem checkValues_cases (own : List (OptionRule α)) (around : Surroundings)
    (a : Arguments (OptionKey α)) :
    (∀ command, checkValues around command own a = pure ()) ∨
      ∃ (rule : OptionRule (OptionKey α)) (value : Text) (halt : Halt),
        a.value? rule.key = some value ∧ rule.form.check around.tree value = .error halt ∧
          ∀ command, checkValues around command own a = match halt with
            | .refused fault => refuse around command fault
            | _ => throw halt := by
  simp only [checkValues, List.forM_eq_forM]
  induction a.inOrder with
  | nil => exact .inl fun _ => rfl
  | cons key keys ih =>
      simp only [List.forM_cons]
      split
      next rule value found given =>
        obtain rfl : rule.key = key := by simpa using List.find?_some found
        cases checked : rule.form.check around.tree value with
        | ok _ => exact ih
        | error halt =>
            refine .inr ⟨rule, value, halt, given, checked, fun command => ?_⟩
            cases halt with
            | refused fault => rfl
            | exit status => rfl
            | raised fault => rfl
      next => exact ih

/-- Whether a command is understood does not depend on how it was given. If it is refused, only the
words of that do. -/
theorem understand_cases (program : Text) (own : List (OptionRule α)) (around : Surroundings)
    (args : List Text) :
    (∃ fault, ∀ below, understand around ⟨program, below, args⟩ own =
      refuse around ⟨program, below, args⟩ fault) ∨
    ∃ m : Run (Arguments (OptionKey α)),
      ∀ below, understand around ⟨program, below, args⟩ own = m := by
  simp only [understand, readArguments]
  cases read : around.packages.commandLine.read (allRules own) true args with
  | error fault => exact .inl ⟨fault, fun below => rfl⟩
  | ok a =>
      simp only [pure_bind]
      obtain silent | answered := answerQuestions_cases program a
      · simp only [silent, pure_bind]
        obtain admitted | ⟨_, _, halt, -, -, ends⟩ := checkValues_cases own around a
        · exact .inr ⟨pure a, fun below => by rw [admitted, pure_bind]⟩
        · simp only [ends]
          cases halt with
          | refused fault => exact .inl ⟨fault, fun below => rfl⟩
          | exit status => exact .inr ⟨throw (.exit status), fun below => rfl⟩
          | raised fault => exact .inr ⟨throw (.raised fault), fun below => rfl⟩
      · exact .inr ⟨answerQuestions program a >>= fun _ => pure a, fun below => answered _ _⟩

/-- Loading settings does not depend on the log, and sets it up anew. -/
theorem outcome_openSettings (program : Text) (around : Surroundings) (file : Option Text)
    (verbose : Bool) (f : Settings → Run Unit) (s : Session) (log : LogSettings) :
    (openSettings program around file verbose >>= f).outcome { s with log := log } =
      (openSettings program around file verbose >>= f).outcome s := by
  rw [outcome_bind, outcome_bind]
  cases loaded : around.load file with
  | ok settings =>
      cases opened : LogSettings.ofSettings settings verbose with
      | ok log => rw [run_openSettings loaded opened, run_openSettings loaded opened]
      | error fault =>
          rw [run_openSettings_unlogged loaded opened, run_openSettings_unlogged loaded opened]
  | error fault =>
      cases reported : isSettingsFault fault with
      | true =>
          rw [run_openSettings_reported loaded reported, run_openSettings_reported loaded reported]
      | false =>
          rw [run_openSettings_unreported loaded reported,
            run_openSettings_unreported loaded reported]

theorem settingsFile_of_no_config (noConfig : a.has .config = false) : settingsFile a = none := by
  rw [settingsFile, Arguments.value?_of_not_has noConfig]
  rfl

/-- The settings of the program above are those that are loaded, and its log is the one that is set
up from them. -/
theorem outcome_resolveSettings
    (loaded : around.load none = .ok settings)
    (opened : LogSettings.ofSettings settings false = .ok log) (program : Text)
    (f : Settings → Run Unit) (s : Session) :
    (resolveSettings program around (some settings) a >>= f).outcome { s with log := log } =
      (resolveSettings program around none a >>= f).outcome s := by
  have alone : resolveSettings program around none a =
    openSettings program around (settingsFile a) (a.has .verbose) := rfl
  rw [alone]
  cases config : a.has .config with
  | true =>
      have below : resolveSettings program around (some settings) a =
          openSettings program around (settingsFile a) (a.has .verbose) := by
        rw [resolveSettings.eq_def, config]
        rfl
      rw [below]
      exact outcome_openSettings program around _ _ f s log
  | false =>
      rw [settingsFile_of_no_config config]
      cases verbose : a.has .verbose with
      | true =>
          have below : resolveSettings program around (some settings) a =
              openSettings program around none true := by
            rw [resolveSettings.eq_def, config, openSettings, loaded]
            dsimp only
            rw [if_pos verbose]
          rw [below]
          exact outcome_openSettings program around _ _ f s log
      | false =>
          have below : resolveSettings program around (some settings) a = pure settings := by
            rw [resolveSettings.eq_def, config]
            dsimp only
            rw [verbose]
            rfl
          rw [below, pure_bind, outcome_bind, run_openSettings loaded opened]

/-- Where settings are loaded, it does not matter when. -/
theorem outcome_start_bind (loaded : around.load none = .ok settings)
    (opened : LogSettings.ofSettings settings false = .ok log) (program : Text)
    (own : List (OptionRule α)) (args : List Text)
    (work : Arguments (OptionKey α) × Settings → Run Unit) (s : Session) :
    let below := (start program own around (some settings) args >>= work).outcome
      { s with log := log }
    let alone := (start program own around none args >>= work).outcome s
    below.out = alone.out ∧ below.ending = alone.ending := by
  intro below alone
  have started (above : Option Settings) (s : Session) :
      (start program own around above args >>= work).outcome s =
        (understand around ⟨program, above.isSome, args⟩ own >>= fun a =>
          resolveSettings program around above a >>= fun settings => work (a, settings)).outcome
            s := by
    simp only [start_eq, bind_assoc, pure_bind]
  obtain ⟨fault, refuses⟩ | ⟨m, takes⟩ := understand_cases program own around args
  · simp only [below, alone, started, refuses]
    exact ⟨rfl, rfl⟩
  · have free : LogFree m := takes true ▸ logFree_understand around _ own
    have same : below = alone := by
      simp only [below, alone, started, takes]
      rw [outcome_bind, outcome_bind, free]
      rcases m.run.run s with ⟨_ | a, s'⟩
      · rfl
      · exact outcome_resolveSettings loaded opened program _ s'
    rw [same]
    exact ⟨rfl, rfl⟩

/-- The question about the version is answered if no other one is asked. -/
theorem question_of_version (asked : a.has .version = true) (noHelp : a.has .help = false) :
    (a.inOrder.filter fun k => k = .version ∨ k = .help).head? = some .version := by
  have only : ∀ k ∈ a.inOrder.filter (fun k => k = .version ∨ k = .help), k = .version := by
    intro k member
    obtain ⟨given, either⟩ := List.mem_filter.mp member
    obtain version | rfl := of_decide_eq_true either
    · exact version
    · rw [Arguments.mem_inOrder, noHelp] at given
      cases given
  have among : .version ∈ a.inOrder.filter (fun k => k = .version ∨ k = .help) :=
    List.mem_filter.mpr ⟨Arguments.mem_inOrder.mpr asked, by simp⟩
  cases filtered : a.inOrder.filter (fun k => k = .version ∨ k = .help) with
  | nil =>
      rw [filtered] at among
      cases among
  | cons k ks =>
      rw [filtered] at only
      rw [List.head?_cons, only k List.mem_cons_self]

end Run

/-- A value that could be passed to a program on its command line is admitted, or refused as part of
the command line. -/
theorem ValueForm.check_error {form : ValueForm} {t : FileTree} {value : Text} {halt : Halt}
    (noNul : .char '\x00' ∉ value) (refused : form.check t value = .error halt) :
    ∃ fault, halt = .refused fault := by
  cases form with
  | flag => cases refused
  | text => cases refused
  | choice words =>
      rw [check] at refused
      split at refused <;> cases refused
      exact ⟨_, rfl⟩
  | path =>
      rw [check] at refused
      cases found : t.find value with
      | ok node =>
          rw [found] at refused
          cases node with
          | link target => cases refused
          | file access data =>
              dsimp only at refused
              split at refused <;> cases refused
              exact ⟨_, rfl⟩
          | directory access entries =>
              dsimp only at refused
              split at refused <;> cases refused
              exact ⟨_, rfl⟩
      | error fault =>
          have unopened : t.openRaw value = .error fault := by rw [FileTree.openRaw, found]
          obtain ⟨cause, rfl⟩ := FileTree.openRaw_error noNul unopened
          rw [found] at refused
          cases refused

namespace Umbrella

open Run

variable {around : Surroundings} {settings : Settings} {log : LogSettings} {fault : Fault}

/-- A command line that starts with the name of a tool. -/
theorem understood_tool (ends : around.packages.commandLine.EndsOptions) (tool : Tool)
    (args : List Text) :
    Understood rules false around (tool.name :: args) ⟨[], tool.name :: args⟩ where
  read := ends.unmixed _ args (by cases tool <;> decide)
  no_version := rfl
  no_help := rfl
  accepted := accepted_of_flags (by simp)

theorem takes_tool (ends : around.packages.commandLine.EndsOptions) (tool : Tool)
    (args : List Text) :
    Program.Takes around .umbrella (tool.name :: args) program none false
      fun settings => tool.launch around (some settings) args :=
  .umbrella (understood_tool ends tool args) (List.cons_ne_nil _ _) rfl

/-- With settings that can be loaded, a tool below the umbrella program runs as it does alone. -/
theorem out_and_ending_eq (ends : around.packages.commandLine.EndsOptions)
    (loaded : around.load none = .ok settings)
    (opened : LogSettings.ofSettings settings false = .ok log) (tool : Tool) (stdin : Stream)
    (args : List Text) :
    let below := Program.umbrella.run around stdin (tool.name :: args)
    let alone := (Program.tool tool).run around stdin args
    below.out = alone.out ∧ below.ending = alone.ending := by
  intro below alone
  obtain ⟨work, works⟩ := tool.exists_isWork around
  have below_eq : below = (tool.launch around (some settings) args).outcome
      { around.session stdin with log := log } := by
    show ((Program.umbrella).launch around (tool.name :: args)).outcome (around.session stdin) = _
    rw [(takes_tool ends tool args).launch_eq, outcome_bind, run_openSettings loaded opened]
  have alone_eq : alone = (tool.launch around none args).outcome (around.session stdin) := rfl
  rw [below_eq, alone_eq, works, works]
  exact outcome_start_bind loaded opened tool.name tool.rules args work (around.session stdin)

end Umbrella

/-- A tool alone that comes to its settings reports that they cannot be loaded. -/
theorem Tool.run_of_unloaded {tool : Tool} {around : Surroundings} {args : List Text}
    {a : Arguments (OptionKey tool.Key)} {fault : Fault}
    (failed : around.load none = .error fault) (reported : Run.isSettingsFault fault = true)
    (read : around.packages.commandLine.read (allRules tool.rules) true args = .ok a)
    (noVersion : a.has .version = false) (noHelp : a.has .help = false)
    (noConfig : a.has .config = false)
    (noNul : ∀ key value, a.value? key = some value → .char '\x00' ∉ value) (stdin : Stream) :
    ((Program.tool tool).run around stdin args).out = [] ∧
      ((Program.tool tool).run around stdin args).status = 2 := by
  obtain ⟨work, works⟩ := tool.exists_isWork around
  have run : (Program.tool tool).run around stdin args =
      (Run.checkValues around ⟨tool.name, false, args⟩ tool.rules a >>= fun _ =>
        Run.openSettings tool.name around none (a.has .verbose) >>= fun settings =>
          work (a, settings)).outcome (around.session stdin) := by
    show (tool.launch around none args).outcome (around.session stdin) = _
    have resolved : Run.resolveSettings tool.name around none a =
        Run.openSettings tool.name around none (a.has .verbose) := by
      rw [← Run.settingsFile_of_no_config noConfig]
      rfl
    rw [works, Run.start]
    simp only [Run.readArguments_eq ⟨_, _, args⟩ read, pure_bind, bind_assoc,
      Run.answerQuestions_eq tool.name noVersion noHelp, resolved]
    rfl
  rw [run]
  obtain admitted | ⟨rule, value, halt, given, refused, ends⟩ :=
    Run.checkValues_cases tool.rules around a
  · rw [admitted, pure_bind, Run.outcome_bind, Run.run_openSettings_reported failed reported]
    exact ⟨rfl, rfl⟩
  · obtain ⟨fault, rfl⟩ := ValueForm.check_error (noNul _ _ given) refused
    rw [ends]
    exact ⟨rfl, rfl⟩

/-- A tool alone that is asked for its version tells it, whatever the settings are. -/
theorem Tool.run_of_version {tool : Tool} {around : Surroundings} {args : List Text}
    {a : Arguments (OptionKey tool.Key)}
    (read : around.packages.commandLine.read (allRules tool.rules) true args = .ok a)
    (asked : a.has .version = true) (noHelp : a.has .help = false) (stdin : Stream) :
    (Program.tool tool).run around stdin args =
      ⟨Run.lineBytes (versionBanner tool.name), [], .exit 0⟩ := by
  have printable : (versionBanner tool.name).Printable := by
    have name : tool.name.Printable := by cases tool <;> exact Text.printable_ofChars _
    simp only [versionBanner, Text.printable_append, name, true_and]
    refine ⟨⟨⟨⟨?_, ?_⟩, ?_⟩, ?_⟩, ?_⟩ <;> exact Text.printable_ofChars _
  have answers : (Run.answerQuestions tool.name a).run.run (around.session stdin) =
      (.error (.exit 0), { around.session stdin with
        out := ({} : Channel).write (Run.lineBytes (versionBanner tool.name)) }) := by
    rw [Run.answerQuestions, Run.question_of_version asked noHelp, Run.run_bind,
      Run.run_echo printable]
    rfl
  obtain ⟨work, works⟩ := tool.exists_isWork around
  show (tool.launch around none args).outcome (around.session stdin) = _
  rw [works, Run.start]
  simp only [Run.readArguments_eq ⟨_, _, args⟩ read, pure_bind, bind_assoc]
  rw [Run.outcome_bind, answers]
  simp [Surroundings.session, Channel.bytes, Channel.write]

/-- A tool alone that cannot read its command line prints nothing but a complaint. -/
theorem Tool.run_of_refused {tool : Tool} {around : Surroundings} {args : List Text}
    {fault : UsageFault}
    (refused : around.packages.commandLine.read (allRules tool.rules) true args = .error fault)
    (stdin : Stream) :
    ((Program.tool tool).run around stdin args).out = [] ∧
      ((Program.tool tool).run around stdin args).status = 2 := by
  obtain ⟨work, works⟩ := tool.exists_isWork around
  have run : (Program.tool tool).run around stdin args =
      (tool.launch around none args).outcome (around.session stdin) := rfl
  rw [run, works, Run.start, Run.readArguments, refused]
  exact ⟨rfl, rfl⟩

/-- No settings can be used, and that is not reported: they cannot be loaded for a fault that nobody
reports, or the log cannot be set up from them. -/
inductive Surroundings.Spoiled (around : Surroundings) (verbose : Bool) : Fault → Prop where
  | unloaded {fault : Fault} (failed : around.load none = .error fault)
      (unreported : Run.isSettingsFault fault = false) : Spoiled around verbose fault
  | unlogged {settings : Settings} {fault : Fault} (loaded : around.load none = .ok settings)
      (refused : LogSettings.ofSettings settings verbose = .error fault) :
      Spoiled around verbose fault

/-- A program that is to use such settings ends by the fault. -/
theorem Program.Takes.run_of_spoiled {p : Program} {around : Surroundings} {args : List Text}
    {program : Text} {verbose : Bool} {work : Settings → Run Unit} {fault : Fault}
    (takes : p.Takes around args program none verbose work)
    (spoiled : around.Spoiled verbose fault) (stdin : Stream) :
    p.run around stdin args = ⟨[], [], .raised fault⟩ := by
  have raised (s : Session) : (Run.openSettings program around none verbose).run.run s =
      (.error (.raised fault), s) := by
    cases spoiled with
    | unloaded failed unreported => exact Run.run_openSettings_unreported failed unreported s
    | unlogged loaded refused => exact Run.run_openSettings_unlogged loaded refused s
  rw [run, takes.launch_eq, Run.run_bind, raised]
  rfl

/-- Below the umbrella program a tool prints what it prints alone, and ends with the same exit
status, if the settings that the umbrella program loads can be used. If they cannot, then the
umbrella program prints nothing to standard output whatever the command line of the tool is. It
exits with status 2 if that is reported; then so does the tool alone, and prints nothing either,
unless it is asked for its version or given a settings file of its own. If it is not reported, then
the status is 1, and it is so for the tool alone if that understands its command line, is not given
a settings file of its own, and cannot use the settings as verbosely as it is to use them. -/
theorem umbrella_runs_tool (tool : Tool) {around : Surroundings}
    (ends : around.packages.commandLine.EndsOptions) (stdin : Stream) (args : List Text)
    (noHelp : ∀ a, around.packages.commandLine.read (allRules tool.rules) true args = .ok a →
      a.has .help = false) :
    let below := Program.umbrella.run around stdin (tool.name :: args)
    let alone := (Program.tool tool).run around stdin args
    (∀ settings log, around.load none = .ok settings →
      LogSettings.ofSettings settings false = .ok log →
      below.out = alone.out ∧ below.status = alone.status) ∧
    (∀ fault, around.load none = .error fault → Run.isSettingsFault fault = true →
      (below.out = [] ∧ below.status = 2) ∧
      ((∀ a, around.packages.commandLine.read (allRules tool.rules) true args = .ok a →
          a.has .version = false ∧ a.has .config = false ∧
          ∀ key value, a.value? key = some value → .char '\x00' ∉ value) →
        below.out = alone.out ∧ below.status = alone.status)) ∧
    ∀ fault, around.Spoiled false fault →
      (below.out = [] ∧ below.status = 1) ∧
      ∀ a, Understood tool.rules true around args a → a.has .config = false →
        (∃ fault, around.Spoiled (a.has .verbose) fault) →
        below.out = alone.out ∧ below.status = alone.status := by
  intro below alone
  have takes := Umbrella.takes_tool ends tool args
  refine ⟨fun settings log loaded opened => ?_, fun fault failed reported => ?_,
    fun fault spoiled => ?_⟩
  · obtain ⟨out, ending⟩ := Umbrella.out_and_ending_eq ends loaded opened tool stdin args
    exact ⟨out, by rw [Outcome.status_eq, Outcome.status_eq, ending]⟩
  · obtain ⟨_, -, reports⟩ := takes.reports failed reported
    have below_eq : below = _ := reports stdin
    refine ⟨by rw [below_eq]; exact ⟨rfl, rfl⟩, fun inherits => ?_⟩
    rw [below_eq]
    cases read : around.packages.commandLine.read (allRules tool.rules) true args with
    | error usage =>
        obtain ⟨out, status⟩ := Tool.run_of_refused read stdin
        exact ⟨out.symm, status.symm⟩
    | ok a =>
        obtain ⟨noVersion, noConfig, noNul⟩ := inherits a read
        obtain ⟨out, status⟩ := Tool.run_of_unloaded failed reported read noVersion (noHelp a read)
          noConfig noNul stdin
        exact ⟨out.symm, status.symm⟩
  · have below_eq : below = _ := takes.run_of_spoiled spoiled stdin
    refine ⟨by rw [below_eq]; exact ⟨rfl, rfl⟩, fun a understood noConfig ⟨fault', spoiled'⟩ => ?_⟩
    obtain ⟨work, works⟩ := tool.exists_isWork around
    have alone_takes := Program.Takes.tool understood works
    rw [Run.settingsFile_of_no_config noConfig] at alone_takes
    have alone_eq : alone = _ := alone_takes.run_of_spoiled spoiled' stdin
    rw [below_eq, alone_eq]
    exact ⟨rfl, rfl⟩

/-- An environment that asks for a chunk size which is no number. -/
def spoiltEnvironment : Environment := [("DEVUTILS_CHECKSUM_CHUNK_SIZE", "abc")]

theorem load_spoiltEnvironment :
    Surroundings.load ⟨.standard, [], spoiltEnvironment⟩ none =
      .error (.badVariable "DEVUTILS_CHECKSUM_CHUNK_SIZE" "abc") := by
  cbv

/-- Surroundings in which a program is sent to a settings file that has a number for a section. -/
def spoiltFile : Surroundings :=
  ⟨.standard, settingsTree [("cloc", .int 1)], [("DEVUTILS_CONFIG", "c.json")]⟩

theorem spoiled_spoiltFile (verbose : Bool) : spoiltFile.Spoiled verbose .wrongKind :=
  .unloaded (load_settingsTree rfl (isJson_section "cloc" isJson_one) rfl) rfl

/-- Standard input is digested below the umbrella program as it is alone. In an environment that
does not fit, and with a settings file that does not, both ways come to the same end. -/
theorem umbrella_runs_tool_quietly :
    let stdin := Stream.ofBytes (Text.encode "x")
    let below (around : Surroundings) := Program.umbrella.run around stdin ["checksum", "-q"]
    let alone (around : Surroundings) := (Program.tool .checksum).run around stdin ["-q"]
    ∀ around ∈ [⟨.standard, [], []⟩, ⟨.standard, [], spoiltEnvironment⟩, spoiltFile],
      (below around).out = (alone around).out ∧
        (below around).status = (alone around).status := by
  intro stdin below alone
  let a : Arguments (OptionKey (Tool.Key .checksum)) := ⟨[(.own .quiet, none)], []⟩
  have read {b : Arguments (OptionKey (Tool.Key .checksum))}
      (read : CommandLinePackage.standard.read (allRules (Tool.rules .checksum)) true ["-q"] =
        .ok b) : a = b := Except.ok.inj read
  have noHelp b (given : CommandLinePackage.standard.read (allRules (Tool.rules .checksum)) true
      ["-q"] = .ok b) : b.has .help = false := by
    obtain rfl := read given
    rfl
  simp only [List.forall_mem_cons]
  refine ⟨?_, ?_, ?_, nofun⟩
  · obtain ⟨log, opened⟩ := LogSettings.exists_ofSettings_default false
    exact (umbrella_runs_tool .checksum CommandLinePackage.standard_endsOptions stdin ["-q"]
      noHelp).1 .default log rfl opened
  · refine ((umbrella_runs_tool .checksum CommandLinePackage.standard_endsOptions stdin ["-q"]
      noHelp).2.1 _ load_spoiltEnvironment rfl).2 fun b given => ?_
    obtain rfl := read given
    refine ⟨rfl, rfl, fun key value valued => ?_⟩
    rw [Arguments.value?_of_flags (by simp [a])] at valued
    cases valued
  · refine ((umbrella_runs_tool .checksum CommandLinePackage.standard_endsOptions stdin ["-q"]
      noHelp).2.2 _ (spoiled_spoiltFile false)).2 a ?_ rfl ⟨_, spoiled_spoiltFile _⟩
    exact ⟨rfl, rfl, rfl, accepted_of_flags (by simp [a])⟩

/-- A tool alone tells its version in that environment, and the umbrella program does not. -/
theorem version_below_umbrella :
    let around : Surroundings := ⟨.standard, [], spoiltEnvironment⟩
    (∃ a, around.packages.commandLine.read (allRules (Tool.rules .checksum)) true ["--version"] =
        .ok a ∧ a.has .help = false) ∧
    ∀ stdin,
      (Program.umbrella.run around stdin ["checksum", "--version"]).status = 2 ∧
      (Program.umbrella.run around stdin ["checksum", "--version"]).out = [] ∧
      ((Program.tool .checksum).run around stdin ["--version"]).status = 0 ∧
      ((Program.tool .checksum).run around stdin ["--version"]).out =
        Run.lineBytes (versionBanner "checksum") := by
  intro around
  refine ⟨⟨_, rfl, rfl⟩, fun stdin => ?_⟩
  obtain ⟨_, -, reports⟩ := (@Umbrella.takes_tool around
    CommandLinePackage.standard_endsOptions .checksum ["--version"]).reports
    load_spoiltEnvironment rfl
  have below : Program.umbrella.run around stdin ["checksum", "--version"] = _ := reports stdin
  have alone := @Tool.run_of_version .checksum around ["--version"] _ rfl rfl rfl stdin
  rw [below, alone]
  exact ⟨rfl, rfl, rfl, rfl⟩

end Bytewise

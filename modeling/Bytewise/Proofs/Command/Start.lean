import Bytewise.Proofs.Command.Session

/-!
# Programs that get to their work

A program gets to its work, without having written anything, if its command line can be read and
does not ask about the program itself, if the values of its options are accepted, and if settings
are loaded from which the log can be set up (`Run.writes_start_of_prepared`). If neither a settings
file nor the environment changes a setting, then it gets there with the default settings
(`Plain.prepared`).

A tool can also be run by the umbrella program, with the rest of the command line and the settings
that the umbrella program has loaded (`Umbrella.writes_launch`); it gets to its work below it in the
same way (`Run.writes_start_of_preparedBelow`).

Two runs of a program with the same files, in which settings are loaded that treat the log alike, go
through the same stages (`Run.start_bind_congr`).
-/

namespace Bytewise

/-- Neither a settings file nor the environment changes a setting. -/
def Surroundings.Untouched (around : Surroundings) : Prop :=
  around.load none = .ok .default

/-- Without environment variables nothing changes a setting, whatever the files are. -/
theorem Surroundings.untouched_nil (packages : Packages) (t : FileTree) :
    Untouched ⟨packages, t, []⟩ := rfl

namespace Arguments

variable {α : Type} [DecidableEq α] {a : Arguments α} {key : α}

theorem mem_inOrder : key ∈ a.inOrder ↔ a.has key = true := by
  simp [inOrder, has]

theorem value?_of_not_has (absent : a.has key = false) : a.value? key = none := by
  have none : a.values key = [] := by
    rw [values, List.filterMap_eq_nil_iff]
    rintro ⟨k, v⟩ member
    have other : k ≠ key := by simpa using List.any_eq_false.mp absent (k, v) member
    exact if_neg other
  rw [value?, none]
  rfl

/-- Flags have no values. -/
theorem value?_of_flags (flags : ∀ option ∈ a.given, option.2 = none) : a.value? key = none := by
  have none : a.values key = [] := by
    rw [values, List.filterMap_eq_nil_iff]
    rintro ⟨k, v⟩ member
    obtain rfl : v = none := flags (k, v) member
    exact ite_self _
  rw [value?, none]
  rfl

end Arguments

def settingsFile {α : Type} [DecidableEq α] (a : Arguments (OptionKey α)) : Option Text :=
  (a.value? .config).map fun name => (Path.ofText name).toText

/-- A command line can be read, and these settings are loaded for it. -/
structure Loads {α : Type} [DecidableEq α] (own : List (OptionRule α)) (around : Surroundings)
    (args : List Text) (a : Arguments (OptionKey α)) (settings : Settings) : Prop where
  read : around.packages.commandLine.read (allRules own) true args = .ok a
  loaded : around.load (settingsFile a) = .ok settings

/-- A command line that does not ask about the program itself, with settings from which the log can
be set up, and values that its options admit. -/
structure Prepared {α : Type} [DecidableEq α] (own : List (OptionRule α)) (around : Surroundings)
    (args : List Text) (a : Arguments (OptionKey α)) (settings : Settings) : Prop
    extends Loads own around args a settings where
  no_version : a.has .version = false
  no_help : a.has .help = false
  accepted : ∀ rule ∈ allRules own, ∀ value, a.value? rule.key = some value →
    rule.form.check around.tree value = .ok ()
  logged : ∃ log, LogSettings.ofSettings settings (a.has .verbose) = .ok log

/-- A command line that can be read, with or without operands among the options, that does not ask
about the program itself, and whose values the options admit. -/
structure Understood {α : Type} [DecidableEq α] (own : List (OptionRule α)) (mixed : Bool)
    (around : Surroundings) (args : List Text) (a : Arguments (OptionKey α)) : Prop where
  read : around.packages.commandLine.read (allRules own) mixed args = .ok a
  no_version : a.has .version = false
  no_help : a.has .help = false
  accepted : ∀ rule ∈ allRules own, ∀ value, a.value? rule.key = some value →
    rule.form.check around.tree value = .ok ()

theorem Prepared.understood {α : Type} [DecidableEq α] {own : List (OptionRule α)}
    {around : Surroundings} {args : List Text} {a : Arguments (OptionKey α)} {settings : Settings}
    (prepared : Prepared own around args a settings) : Understood own true around args a :=
  ⟨prepared.read, prepared.no_version, prepared.no_help, prepared.accepted⟩

/-- A command line of a program that runs below another one, and gets the settings of that one
unless it asks for a settings file of its own. -/
structure PreparedBelow {α : Type} [DecidableEq α] (own : List (OptionRule α))
    (around : Surroundings) (above : Settings) (args : List Text) (a : Arguments (OptionKey α))
    (settings : Settings) : Prop
    extends Understood own true around args a where
  inherited : a.has .config = false → settings = above
  loaded : a.has .config = true →
    around.load (settingsFile a) = .ok settings
  logged : a.has .config = true ∨ a.has .verbose = true →
    ∃ log, LogSettings.ofSettings settings (a.has .verbose) = .ok log

/-- A command line that a program takes, and that asks neither about the program itself nor for a
settings file. -/
structure Plain {α : Type} [DecidableEq α] (own : List (OptionRule α)) (around : Surroundings)
    (args : List Text) (a : Arguments (OptionKey α)) : Prop where
  read : around.packages.commandLine.read (allRules own) true args = .ok a
  no_version : a.has .version = false
  no_help : a.has .help = false
  no_config : a.has .config = false

/-- The log can be set up from the default settings. -/
theorem LogSettings.exists_ofSettings_default (verbose : Bool) :
    ∃ log, ofSettings .default verbose = .ok log := by
  have opened : (ofSettings .default verbose).isOk = true := by
    cases verbose <;> decide +kernel
  cases made : ofSettings .default verbose with
  | ok log => exact ⟨log, rfl⟩
  | error fault =>
      rw [made] at opened
      cases opened

/-- Where nothing changes a setting, the default ones are loaded. -/
theorem Plain.prepared {α : Type} [DecidableEq α] {own : List (OptionRule α)}
    {around : Surroundings} {args : List Text} {a : Arguments (OptionKey α)}
    (plain : Plain own around args a) (untouched : around.Untouched)
    (accepted : ∀ rule ∈ allRules own, ∀ value, a.value? rule.key = some value →
      rule.form.check around.tree value = .ok ()) :
    Prepared own around args a .default where
  read := plain.read
  loaded := by
    rw [settingsFile, Arguments.value?_of_not_has plain.no_config]
    exact untouched
  no_version := plain.no_version
  no_help := plain.no_help
  accepted := accepted
  logged := LogSettings.exists_ofSettings_default _

/-- Below a program with the default settings those are used. -/
theorem Plain.preparedBelow {α : Type} [DecidableEq α] {own : List (OptionRule α)}
    {around : Surroundings} {args : List Text} {a : Arguments (OptionKey α)}
    (plain : Plain own around args a)
    (accepted : ∀ rule ∈ allRules own, ∀ value, a.value? rule.key = some value →
      rule.form.check around.tree value = .ok ()) :
    PreparedBelow own around .default args a .default where
  read := plain.read
  no_version := plain.no_version
  no_help := plain.no_help
  accepted := accepted
  inherited := fun _ => rfl
  loaded := fun config => by simp [plain.no_config] at config
  logged := fun _ => LogSettings.exists_ofSettings_default _

/-- There is nothing to check about flags. -/
theorem accepted_of_flags {α : Type} [DecidableEq α] {own : List (OptionRule α)} {t : FileTree}
    {a : Arguments (OptionKey α)} (flags : ∀ option ∈ a.given, option.2 = none) :
    ∀ rule ∈ allRules own, ∀ value, a.value? rule.key = some value →
      rule.form.check t value = .ok () := by
  intro rule _ value given
  rw [Arguments.value?_of_flags flags] at given
  cases given

namespace Run

variable {α : Type} [DecidableEq α] {own : List (OptionRule α)} {around : Surroundings}
  {args : List Text} {a : Arguments (OptionKey α)} {settings : Settings}

theorem answerQuestions_eq (program : Text) (noVersion : a.has .version = false)
    (noHelp : a.has .help = false) : answerQuestions program a = pure () := by
  have none : a.inOrder.filter (fun k => k = .version ∨ k = .help) = [] := by
    rw [List.filter_eq_nil_iff]
    intro key given
    rw [Arguments.mem_inOrder] at given
    simp only [decide_eq_true_eq]
    rintro (rfl | rfl)
    · simp [noVersion] at given
    · simp [noHelp] at given
  rw [answerQuestions, none]
  rfl

/-- Values that their options admit are passed over. -/
theorem checkValues_eq (command : Invocation)
    (accepted : ∀ rule ∈ allRules own, ∀ value, a.value? rule.key = some value →
      rule.form.check around.tree value = .ok ()) :
    checkValues around command own a = pure () := by
  rw [checkValues, List.forM_eq_forM]
  induction a.inOrder with
  | nil => rfl
  | cons key keys ih =>
      rw [List.forM_cons, ih]
      split
      next rule value found given =>
        have same : rule.key = key := by simpa using List.find?_some found
        rw [accepted rule (List.mem_of_find?_eq_some found) value (same ▸ given)]
        rfl
      next => rfl

omit [DecidableEq α] in
theorem readArguments_eq {mixed : Bool} (command : Invocation)
    (read : around.packages.commandLine.read (allRules own) mixed command.args = .ok a) :
    readArguments around command own mixed = pure a := by
  rw [readArguments, read]

/-- The stages before the settings do nothing but read the command line. -/
theorem understood_eq {β : Type} {mixed : Bool} (program : Text) (command : Invocation)
    (understood : Understood own mixed around command.args a)
    (f : Arguments (OptionKey α) → Run β) :
    (do
      let a ← readArguments around command own mixed
      answerQuestions program a
      checkValues around command own a
      f a) = f a := by
  simp only [readArguments_eq command understood.read, pure_bind,
    answerQuestions_eq program understood.no_version understood.no_help,
    checkValues_eq command understood.accepted]

theorem loadSettings_eq (program : Text)
    (loaded : around.load (settingsFile a) = .ok settings) :
    loadSettings program around a = do
      openLog settings (a.has .verbose)
      return settings := by
  rw [settingsFile] at loaded
  rw [loadSettings, loaded]

theorem writes_openLog {verbose : Bool} {log : LogSettings}
    (opened : LogSettings.ofSettings settings verbose = .ok log) :
    Writes (openLog settings verbose) (.ok ()) [] := by
  rw [openLog, opened]
  exact fun s => ⟨{ s with log := log }, rfl, by simp, rfl⟩

theorem writes_loadSettings (program : Text)
    (loaded : around.load (settingsFile a) = .ok settings)
    (logged : ∃ log, LogSettings.ofSettings settings (a.has .verbose) = .ok log) :
    Writes (loadSettings program around a) (.ok settings) [] := by
  obtain ⟨log, opened⟩ := logged
  rw [loadSettings_eq program loaded]
  exact (writes_openLog opened).then (writes_pure _)

theorem writes_start_of_prepared (program : Text) (prepared : Prepared own around args a settings) :
    Writes (start program own around none args) (.ok (a, settings)) [] := by
  rw [start, understood_eq program ⟨_, _, args⟩ prepared.understood]
  exact (writes_loadSettings program prepared.loaded prepared.logged).then (writes_pure _)

/-- The settings of the program above are taken as they are. -/
theorem writes_resolveSettings_of_preparedBelow (program : Text) {above : Settings}
    (prepared : PreparedBelow own around above args a settings) :
    Writes (resolveSettings program around (some above) a) (.ok settings) [] := by
  cases config : a.has .config with
  | true =>
      rw [resolveSettings.eq_def, config]
      exact writes_loadSettings program (prepared.loaded config) (prepared.logged (.inl config))
  | false =>
      obtain rfl := prepared.inherited config
      rw [resolveSettings.eq_def, config]
      dsimp only
      split
      next verbose =>
        obtain ⟨log, opened⟩ := prepared.logged (.inr verbose)
        rw [verbose] at opened
        exact (writes_openLog opened).then (writes_pure _)
      next => exact writes_pure _

theorem writes_start_of_preparedBelow (program : Text) {above : Settings}
    (prepared : PreparedBelow own around above args a settings) :
    Writes (start program own around (some above) args) (.ok (a, settings)) [] := by
  rw [start, understood_eq program ⟨_, _, args⟩ prepared.toUnderstood]
  exact (writes_resolveSettings_of_preparedBelow program prepared).then (writes_pure _)

/-- The stages of a program before its work give the command line that was read. -/
theorem start_bind_of_read {β : Type}
    (read : around.packages.commandLine.read (allRules own) true args = .ok a)
    (program : Text) (above : Option Settings)
    {work work' : Arguments (OptionKey α) × Settings → Run β}
    (same : ∀ settings, work (a, settings) = work' (a, settings)) :
    start program own around above args >>= work =
      start program own around above args >>= work' := by
  simp only [start, readArguments_eq ⟨_, _, args⟩ read, pure_bind, bind_assoc, same]

/-- With the same files, and settings that treat the log alike, a program comes to its work in the
same way, or does not come to it in the same way. -/
theorem start_bind_congr {β : Type} {around' : Surroundings} {settings' : Settings}
    {work work' : Arguments (OptionKey α) × Settings → Run β} (program : Text)
    (samePackages : around'.packages = around.packages) (sameTree : around'.tree = around.tree)
    (loads : Loads own around args a settings) (loads' : Loads own around' args a settings')
    (sameLog : ∀ verbose,
      LogSettings.ofSettings settings' verbose = LogSettings.ofSettings settings verbose)
    (sameWork : work' (a, settings') = work (a, settings)) :
    start program own around' none args >>= work' =
      start program own around none args >>= work := by
  have resolve : ∀ around : Surroundings,
      resolveSettings program around none a = loadSettings program around a := fun _ => rfl
  have logs : openLog settings' (a.has .verbose) = openLog settings (a.has .verbose) := by
    rw [openLog, openLog, sameLog]
  have checks (command : Invocation) :
      checkValues around' command own a = checkValues around command own a := by
    simp only [checkValues, refuse, samePackages, sameTree]
  simp only [start, readArguments_eq ⟨_, _, args⟩ loads.read,
    readArguments_eq ⟨_, _, args⟩ loads'.read, resolve,
    loadSettings_eq program loads.loaded, loadSettings_eq program loads'.loaded, logs, checks,
    bind_assoc, pure_bind, sameWork]

end Run

/-! ## Tools below the umbrella program -/

namespace Umbrella

open Run

/-- A command line with which the umbrella program runs a tool: the tool's command line follows its
name, and the settings are loaded. -/
structure Selects (around : Surroundings) (args : List Text) (a : Arguments (OptionKey Empty))
    (tool : Tool) (rest : List Text) (settings : Settings) : Prop
    extends Understood rules false around args a where
  given : args ≠ []
  selected : a.operands = tool.name :: rest
  loaded : around.load (settingsFile a) = .ok settings
  logged : ∃ log, LogSettings.ofSettings settings (a.has .verbose) = .ok log

variable {around : Surroundings} {args : List Text} {a : Arguments (OptionKey Empty)} {tool : Tool}
  {rest : List Text} {settings : Settings}

/-- The umbrella program loads settings and runs the tool that it is asked for. -/
theorem launch_eq (understood : Understood rules false around args a) (given : args ≠ [])
    (selected : a.operands = tool.name :: rest) :
    launch around args = loadSettings program around a >>= fun settings =>
      tool.launch around (some settings) rest := by
  have inhabited : args.isEmpty = false := by simpa using given
  have known : Tool.named? tool.name = some tool := by cases tool <;> rfl
  have own : readOwn around args = pure a :=
    understood_eq program (command args) understood pure
  rw [launch, inhabited, if_neg Bool.false_ne_true, own, pure_bind, selected]
  dsimp only
  rw [known]

/-- The umbrella program writes what the tool writes. -/
theorem writes_launch {r : Except Halt Unit} {data : Bytes}
    (selects : Selects around args a tool rest settings)
    (works : Writes (tool.launch around (some settings) rest) r data) :
    Writes (launch around args) r data := by
  rw [launch_eq selects.toUnderstood selects.given selects.selected]
  exact (writes_loadSettings program selects.loaded selects.logged).then works

end Umbrella

end Bytewise

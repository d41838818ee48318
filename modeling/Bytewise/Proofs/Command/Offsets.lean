import Bytewise.Proofs.Command.Independence
import Bytewise.Proofs.Dump.Offset

/-!
# Offsets on the command line of the dump program

The texts of the skip and of the limit may be anything. The program either reports one of them, or
dumps the bytes behind the skip up to the limit, with three exceptions in which it is ended by a
fault that it does not handle (`offsets_handled_iff`): either text may begin with a decimal numeral
of more digits than are converted, and the skip may lie beyond the positions that the system knows.

The texts are looked at in turn. A skip that is rejected hides the limit, and a limit that is
rejected hides a skip that lies too far.
-/

namespace Bytewise.DumpProgram

open Run

variable {around : Surroundings} {args : List Text} {a : Arguments (OptionKey Key)}
  {settings : Settings} {log : LogSettings} {voice : Voice} {name : Text} {data : Bytes}
  {fault : Fault} {layout : Layout} {skip : Int} {limit : Option Int}
  {width : { w : Nat // 0 < w ∧ w % 2 = 0 }}

/-! ## The options -/

/-- The characters of a text as an offset is read from them; a stray byte belongs to no offset. -/
def offsetChars (t : Text) : List Char := t.map fun s => s.char?.getD '\ufffd'

theorem offsetChars_ofChars (cs : List Char) : offsetChars (Text.ofChars cs) = cs := by
  rw [offsetChars, Text.ofChars, List.map_map]
  exact List.map_id cs

/-- The number of bytes to skip that a command line asks for. -/
def skipGiven (a : Arguments (OptionKey Key)) : Except Fault Int :=
  match a.value? (.own .skip) with
  | some t => Offset.parse (offsetChars t)
  | none => .ok 0

def limitGiven (a : Arguments (OptionKey Key)) : Except Fault (Option Int) :=
  match a.value? (.own .length) with
  | some t => some <$> Offset.parse (offsetChars t)
  | none => .ok none

def chosen (a : Arguments (OptionKey Key)) (settings : Settings)
    (width : { w : Nat // 0 < w ∧ w % 2 = 0 }) (skip : Int) (limit : Option Int) :
    DumpOptions where
  layout := (a.lastOf layoutOf).getD .canonical
  skip := skip.toNat
  length := limit.map Int.toNat
  squeeze := (settings.get .suppressDuplicates).truthy && !a.has (.own .everyLine)
  width := width.1
  width_pos := width.2.1
  width_even := width.2.2

theorem prints_reject {β : Type} (voice : Voice) (fault : Fault) :
    (reject fault : Run β).Prints voice (.error (.exit 1)) []
      (complaint voice program fault.message) :=
  (prints_complain _ _).bind_nil (prints_throw _)

/-- A limit is read as a skip is, if there is one. -/
theorem orRaise_limitGiven (a : Arguments (OptionKey Key)) :
    orRaise (limitGiven a) = (match a.value? (.own .length) with
      | some t => some <$> readOffset t
      | none => pure none) := by
  rw [limitGiven]
  cases a.value? (.own .length) with
  | none => rfl
  | some t =>
      show orRaise (some <$> Offset.parse (offsetChars t)) =
        some <$> orRaise (Offset.parse (offsetChars t))
      cases Offset.parse (offsetChars t) <;> rfl

theorem orRaise_skipGiven (a : Arguments (OptionKey Key)) :
    orRaise (skipGiven a) = (match a.value? (.own .skip) with
      | some t => readOffset t
      | none => pure 0) := by
  rw [skipGiven]
  cases a.value? (.own .skip) <;> rfl

/-- The texts are read one after the other. -/
theorem dumpOptions_eq (a : Arguments (OptionKey Key)) (settings : Settings) :
    dumpOptions a settings = (do
      let skip ← orRaise (skipGiven a)
      if skip < 0 then reject .invalidSkip
      let limit ← orRaise (limitGiven a)
      makeOptions ((a.lastOf layoutOf).getD .canonical) a settings skip limit) := by
  rw [orRaise_skipGiven, orRaise_limitGiven, dumpOptions, dumpOptionsIn]
  cases a.value? (.own .skip) <;> cases a.value? (.own .length) <;> rfl

theorem dumpOptions_of_skip_fails (given : skipGiven a = .error fault) :
    dumpOptions a settings = throw (.raised fault) := by
  rw [dumpOptions_eq, given]
  rfl

theorem prints_dumpOptions_of_skip_negative (given : skipGiven a = .ok skip)
    (negative : skip < 0) :
    (dumpOptions a settings).Prints voice (.error (.exit 1)) []
      (complaint voice program "invalid skip value") := by
  rw [dumpOptions_eq, given]
  show Prints voice (if skip < 0 then _ else _) _ _ _
  rw [if_pos negative]
  exact (prints_reject voice .invalidSkip).bind_error

/-- Behind a skip that is admitted the limit is read. -/
theorem dumpOptions_of_skip_admitted (given : skipGiven a = .ok skip) (admitted : 0 ≤ skip) :
    dumpOptions a settings = (do
      let limit ← orRaise (limitGiven a)
      makeOptions ((a.lastOf layoutOf).getD .canonical) a settings skip limit) := by
  rw [dumpOptions_eq, given]
  show (if skip < 0 then _ else _) = _
  rw [if_neg (Int.not_lt.mpr admitted)]

theorem dumpOptions_of_limit_fails (skips : skipGiven a = .ok skip) (admitted : 0 ≤ skip)
    (given : limitGiven a = .error fault) : dumpOptions a settings = throw (.raised fault) := by
  rw [dumpOptions_of_skip_admitted skips admitted, given]
  rfl

theorem dumpOptions_of_given (skips : skipGiven a = .ok skip) (admitted : 0 ≤ skip)
    (limits : limitGiven a = .ok limit) :
    dumpOptions a settings =
      makeOptions ((a.lastOf layoutOf).getD .canonical) a settings skip limit := by
  rw [dumpOptions_of_skip_admitted skips admitted, limits]
  rfl

theorem prints_makeOptions_of_limit_rejected {n : Int} (rejected : n ≤ 0) :
    (makeOptions layout a settings skip (some n)).Prints voice (.error (.exit 1)) []
      (complaint voice program "invalid length value") := by
  have positive : (some n).any (· ≤ 0) = true := decide_eq_true rejected
  rw [makeOptions, positive, if_pos rfl]
  exact (prints_reject voice .invalidLength).bind_error

/-- With a width that is admitted, the options are those chosen. -/
theorem makeOptions_eq (sane : DumpOptions.checkWidth (settings.get .bytesPerLine) = .ok width)
    (admitted : 0 ≤ skip) (limited : ∀ n, limit = some n → 0 < n) :
    makeOptions ((a.lastOf layoutOf).getD .canonical) a settings skip limit =
      pure (chosen a settings width skip limit) := by
  have skips : DumpOptions.checkSkip (.int skip) = .ok skip.toNat := by
    simp [DumpOptions.checkSkip, Value.int?, admitted]
  have limits : limit.any (· ≤ 0) = false ∧
      DumpOptions.checkLength ((limit.map Value.int).getD .null) =
        .ok (limit.map Int.toNat) := by
    cases limit with
    | none => exact ⟨rfl, rfl⟩
    | some n =>
        have positive : ¬ n ≤ 0 := Int.not_le.mpr (limited n rfl)
        refine ⟨decide_eq_false positive, ?_⟩
        simp [DumpOptions.checkLength, Value.int?, positive]
  obtain ⟨width, positive, even⟩ := width
  unfold makeOptions DumpOptions.make
  rw [limits.1, if_neg Bool.false_ne_true, skips, limits.2, sane]
  rfl

/-! ## Runs with one file -/

section

variable (prepared : Prepared rules around args a settings)
  (opened : LogSettings.ofSettings settings (a.has .verbose) = .ok log)
  (single : a.operands = [name]) (stdin : Stream)

include prepared opened

/-- The program chooses the options and works with them. -/
theorem run_eq_outcome_options :
    (Program.tool .dump).run around stdin args =
      (dumpOptions a settings >>= work around.tree.supply a).outcome
        { around.session stdin with log := log } := by
  show (launchOn around.tree.supply around none args).outcome (around.session stdin) = _
  rw [launchOn, outcome_bind, run_start_of_prepared program prepared opened]

/-- If the options cannot be had, the file is not looked at. -/
theorem run_of_options_error {halt : Halt} {err : Bytes}
    (halts : (dumpOptions a settings).Prints ⟨around.packages.terminal, log⟩ (.error halt) [] err) :
    (Program.tool .dump).run around stdin args = ⟨[], err, halt⟩ := by
  rw [run_eq_outcome_options prepared opened]
  exact halts.bind_error.outcome rfl ⟨rfl, rfl⟩

include single in
theorem run_of_options {o : DumpOptions} (options : dumpOptions a settings = pure o) :
    (Program.tool .dump).run around stdin args =
      (handling ⟨around.packages.terminal, log⟩ around.tree.supply o).outcome [name] := by
  have inhabited : a.operands.isEmpty = false := by rw [single]; rfl
  rw [run_eq_outcome_options prepared opened, options, pure_bind, work, inhabited, single]
  exact Handling.outcome_eq (fun name _ => prints_dumpOperand _ around.tree.supply o name)
    (fun bs => prints_unless (bs.all id)) rfl ⟨rfl, rfl⟩

end

def dumpRecord (o : DumpOptions) (name : Text) : LogRecord :=
  ⟨.dumpCommand, "Dumping " ++ name ++ " (" ++ o.layout.name ++ ")"⟩

/-- What is reported of a file that can be read. -/
theorem report_of_readable {t : FileTree} (readable : t.openRaw name = .ok data) (voice : Voice)
    (o : DumpOptions) :
    (handling voice t.supply o).report name =
      ((endReport voice name (Dump.ofStream o (.ofFile data)).fault?).showing
        ((Dump.ofStream o (.ofFile data)).lines.flatMap fun line =>
          lineBytes (Text.ofChars line))).noting (recorded voice (dumpRecord o name)) := by
  have jumps : (Stream.ofFile data).jumpFails o.skip = false := by
    simp [Stream.jumpFails, Stream.ofFile, Stream.ofBytes]
  have supplied : t.supply.opened name = .ok (.ofFile data) := by
    rw [t.opened_supply, readable]
    rfl
  show operandReport voice o name (t.supply.opened name) = _
  rw [supplied, operandReport, dumpReport, jumps]
  rfl

theorem outcome_of_near {t : FileTree} {o : DumpOptions} (readable : t.openRaw name = .ok data)
    (near : o.skip < sizeBound) (voice : Voice) :
    ∃ rows, Regroups o.width o.skip (o.selection data) rows ∧
      (handling voice t.supply o).outcome [name] =
        ⟨(dumpLines o rows).flatMap fun line => lineBytes (Text.ofChars line),
          recorded voice (dumpRecord o name), .exit 0⟩ := by
  obtain ⟨fine, cut⟩ := regroups_readRows (Stream.delivers_ofFile data) rfl near
  refine ⟨_, cut, ?_⟩
  have complete : (Dump.ofStream o (.ofFile data)).fault? = none := fine
  have report := report_of_readable readable voice o
  rw [complete] at report
  have good : ((handling voice t.supply o).report name).result = .ok true := by
    rw [report]
    rfl
  rw [Handling.outcome_single_of_ok good, report]
  simp [Report.noting, Report.showing, endReport, handling, Dump.ofStream]

theorem outcome_of_far {t : FileTree} {o : DumpOptions} (readable : t.openRaw name = .ok data)
    (far : sizeBound ≤ o.skip) (voice : Voice) :
    (handling voice t.supply o).outcome [name] =
      ⟨[], recorded voice (dumpRecord o name), .raised .positionTooLarge⟩ := by
  have beyond : (Stream.ofFile data).OutOfReach o.skip := ⟨rfl, rfl, far⟩
  have stopped : readRows o (.ofFile data) = ⟨[], some .positionTooLarge, .ofFile data⟩ :=
    readRows_of_outOfReach beyond
  have report := report_of_readable readable voice o
  rw [Dump.ofStream, stopped] at report
  have raised : ((handling voice t.supply o).report name).result =
      .error (.raised .positionTooLarge) := by
    rw [report]
    rfl
  rw [Handling.outcome_single_of_raised raised, report]
  simp [Report.noting, Report.showing, endReport, dumpLines]

/-! ## All texts -/

/-- The texts of a command line end the program by a fault that it does not handle. -/
inductive Unhandled (a : Arguments (OptionKey Key)) : Prop
  | skip_too_long {t : Text} (given : a.value? (.own .skip) = some t)
    (long : Offset.TooLong (offsetChars t))
  | limit_too_long {t : Text} {skip : Int} (skips : skipGiven a = .ok skip) (admitted : 0 ≤ skip)
    (given : a.value? (.own .length) = some t) (long : Offset.TooLong (offsetChars t))
  | out_of_reach {skip : Int} {limit : Option Int} (skips : skipGiven a = .ok skip)
    (far : sizeBound ≤ skip) (limits : limitGiven a = .ok limit)
    (limited : ∀ n, limit = some n → 0 < n)

/-- What the program does about a file: it reports the skip, or the limit, or dumps what the two of
them select. -/
inductive Answers (a : Arguments (OptionKey Key)) (settings : Settings)
    (width : { w : Nat // 0 < w ∧ w % 2 = 0 }) (voice : Voice) (name : Text) (data : Bytes) :
    Outcome → Prop
  | bad_skip {skip : Int} (skips : skipGiven a = .ok skip) (negative : skip < 0) :
    Answers a settings width voice name data
      ⟨[], complaint voice program "invalid skip value", .exit 1⟩
  | bad_limit {skip n : Int} (skips : skipGiven a = .ok skip) (admitted : 0 ≤ skip)
    (limits : limitGiven a = .ok (some n)) (rejected : n ≤ 0) :
    Answers a settings width voice name data
      ⟨[], complaint voice program "invalid length value", .exit 1⟩
  | dumps {skip : Int} {limit : Option Int} {rows : List Row} (skips : skipGiven a = .ok skip)
    (admitted : 0 ≤ skip) (limits : limitGiven a = .ok limit)
    (limited : ∀ n, limit = some n → 0 < n)
    (cut : Regroups width.1 skip.toNat (upTo (limit.map Int.toNat) (data.drop skip.toNat)) rows) :
    Answers a settings width voice name data
      ⟨(dumpLines (chosen a settings width skip limit) rows).flatMap fun line =>
          lineBytes (Text.ofChars line),
        recorded voice (dumpRecord (chosen a settings width skip limit) name), .exit 0⟩

theorem skipGiven_fails_iff :
    (∃ fault, skipGiven a = .error fault) ↔
      ∃ t, a.value? (.own .skip) = some t ∧ Offset.TooLong (offsetChars t) := by
  rw [skipGiven]
  cases a.value? (.own .skip) with
  | none => simp
  | some t => simp [Offset.parse_fails_iff]

theorem limitGiven_fails_iff :
    (∃ fault, limitGiven a = .error fault) ↔
      ∃ t, a.value? (.own .length) = some t ∧ Offset.TooLong (offsetChars t) := by
  rw [limitGiven]
  cases a.value? (.own .length) with
  | none => simp
  | some t =>
      have same : (∃ fault, some <$> Offset.parse (offsetChars t) = .error fault) ↔
          ∃ fault, Offset.parse (offsetChars t) = .error fault := by
        cases Offset.parse (offsetChars t) <;> simp
      simp [same, Offset.parse_fails_iff]

/-- Two numbers that can be read, and a skip that the system can take, are handled. -/
theorem not_unhandled (skips : skipGiven a = .ok skip) (near : skip < sizeBound)
    (limits : limitGiven a = .ok limit) : ¬ Unhandled a := by
  intro unhandled
  cases unhandled with
  | skip_too_long given long =>
      obtain ⟨fault, fails⟩ := skipGiven_fails_iff.mpr ⟨_, given, long⟩
      cases skips.symm.trans fails
  | limit_too_long _ _ given long =>
      obtain ⟨fault, fails⟩ := limitGiven_fails_iff.mpr ⟨_, given, long⟩
      cases limits.symm.trans fails
  | out_of_reach skips' far _ _ =>
      cases skips.symm.trans skips'
      exact absurd far (Int.not_le.mpr near)

section

variable (prepared : Prepared rules around args a settings)
  (opened : LogSettings.ofSettings settings (a.has .verbose) = .ok log)
  (sane : DumpOptions.checkWidth (settings.get .bytesPerLine) = .ok width)
  (single : a.operands = [name]) (readable : around.tree.openRaw name = .ok data) (stdin : Stream)

include prepared opened sane single readable

theorem run_of_unhandled (unhandled : Unhandled a) :
    ∃ fault err, (Program.tool .dump).run around stdin args = ⟨[], err, .raised fault⟩ := by
  cases unhandled with
  | skip_too_long given long =>
      obtain ⟨fault, fails⟩ := skipGiven_fails_iff.mpr ⟨_, given, long⟩
      refine ⟨fault, [], run_of_options_error prepared opened stdin ?_⟩
      rw [dumpOptions_of_skip_fails fails]
      exact prints_throw _
  | limit_too_long skips admitted given long =>
      obtain ⟨fault, fails⟩ := limitGiven_fails_iff.mpr ⟨_, given, long⟩
      refine ⟨fault, [], run_of_options_error prepared opened stdin ?_⟩
      rw [dumpOptions_of_limit_fails skips admitted fails]
      exact prints_throw _
  | @out_of_reach skip limit skips far limits limited =>
      have admitted : 0 ≤ skip := Int.le_trans (Int.natCast_nonneg _) far
      have options : dumpOptions a settings = pure (chosen a settings width skip limit) :=
        (dumpOptions_of_given skips admitted limits).trans (makeOptions_eq sane admitted limited)
      have beyond : sizeBound ≤ (chosen a settings width skip limit).skip :=
        (Int.le_toNat admitted).mpr far
      exact ⟨_, _, (run_of_options prepared opened single stdin options).trans
        (outcome_of_far readable beyond _)⟩

theorem answers_run (handled : ¬ Unhandled a) :
    Answers a settings width ⟨around.packages.terminal, log⟩ name data
      ((Program.tool .dump).run around stdin args) := by
  cases skips : skipGiven a with
  | error fault =>
      obtain ⟨t, given, long⟩ := skipGiven_fails_iff.mp ⟨fault, skips⟩
      exact absurd (.skip_too_long given long) handled
  | ok skip =>
      obtain negative | admitted := lt_or_ge skip 0
      · rw [run_of_options_error prepared opened stdin
          (prints_dumpOptions_of_skip_negative skips negative)]
        exact .bad_skip skips negative
      · cases limits : limitGiven a with
        | error fault =>
            obtain ⟨t, given, long⟩ := limitGiven_fails_iff.mp ⟨fault, limits⟩
            exact absurd (.limit_too_long skips admitted given long) handled
        | ok limit =>
            have options : dumpOptions a settings =
                makeOptions ((a.lastOf layoutOf).getD .canonical) a settings skip limit :=
              dumpOptions_of_given skips admitted limits
            by_cases limited : ∀ n, limit = some n → 0 < n
            · have options := options.trans (makeOptions_eq sane admitted limited)
              have near : skip.toNat < sizeBound := by
                by_contra far
                refine handled (.out_of_reach skips ?_ limits limited)
                omega
              obtain ⟨rows, cut, outcome⟩ :=
                outcome_of_near (o := chosen a settings width skip limit) readable near
                  ⟨around.packages.terminal, log⟩
              rw [run_of_options prepared opened single stdin options, outcome]
              exact .dumps skips admitted limits limited cut
            · push Not at limited
              obtain ⟨n, rfl, rejected⟩ := limited
              have halts : (dumpOptions a settings).Prints ⟨around.packages.terminal, log⟩ _ [] _ :=
                options ▸ prints_makeOptions_of_limit_rejected rejected
              rw [run_of_options_error prepared opened stdin halts]
              exact .bad_limit skips admitted limits rejected

end

/-- Any two texts can be given, and any name. -/
theorem read_offsets (skip limit name : Text) :
    CommandLinePackage.standard.read (allRules rules) true ["-s", skip, "-n", limit, "--", name] =
      .ok ⟨[(.own .skip, some skip), (.own .length, some limit)], [name]⟩ :=
  rfl

/-- On a file that can be read, whatever texts are given for the skip and the limit, the program
reports one of them and exits with status one, or prints the dump of the bytes that they select and
exits with status zero, or prints nothing and is ended by a fault that it does not handle, in just
the situations of `Unhandled`. Nothing is printed of a file if the skip is not before its end.

These faults come from two functions. Reading a text as an offset fails exactly if a decimal numeral
of more digits than are converted stands behind its blanks and sign; a dump meets a fault that is
not the system's exactly if the stream is to jump to a position that the system cannot take. -/
theorem offsets_handled_iff (prepared : Prepared rules around args a settings)
    (opened : LogSettings.ofSettings settings (a.has .verbose) = .ok log)
    (sane : DumpOptions.checkWidth (settings.get .bytesPerLine) = .ok width)
    (single : a.operands = [name]) (readable : around.tree.openRaw name = .ok data)
    (stdin : Stream) :
    let run := (Program.tool .dump).run around stdin args
    (run.raised = true ↔ Unhandled a) ∧
      (run.raised = true → run.out = []) ∧
      (run.raised = false →
        Answers a settings width ⟨around.packages.terminal, log⟩ name data run) ∧
      (∀ skip, skipGiven a = .ok skip → data.length ≤ skip → run.out = []) ∧
      (∀ cs, (∃ fault, Offset.parse cs = .error fault) ↔ Offset.TooLong cs) ∧
      ∀ (o : DumpOptions) (s : Stream),
        (∃ fault, (Dump.ofStream o s).fault? = some fault ∧ ∀ cause, fault ≠ .system cause) ↔
          s.OutOfReach o.skip := by
  intro run
  have functions := And.intro @Offset.parse_fails_iff other_fault_iff_outOfReach
  by_cases unhandled : Unhandled a
  · obtain ⟨fault, err, ended⟩ :=
      run_of_unhandled prepared opened sane single readable stdin unhandled
    have ended : run = ⟨[], err, .raised fault⟩ := ended
    rw [ended]
    exact ⟨iff_of_true rfl unhandled, fun _ => rfl, nofun, fun _ _ _ => rfl, functions⟩
  · have answers : Answers a settings width ⟨around.packages.terminal, log⟩ name data run :=
      answers_run prepared opened sane single readable stdin unhandled
    clear_value run
    have ends : run.raised = false := by
      cases answers <;> rfl
    rw [ends]
    refine ⟨iff_of_false Bool.false_ne_true unhandled, nofun, fun _ => answers, ?_, functions⟩
    intro skip skips past
    cases answers with
    | bad_skip => rfl
    | bad_limit => rfl
    | dumps skips' admitted limits limited cut =>
        cases skips.symm.trans skips'
        have nothing : data.drop skip.toNat = [] := List.drop_eq_nil_iff.mpr (by omega)
        rw [nothing, upTo_nil] at cut
        rw [cut.eq_nil]
        rfl

/-- A hexadecimal skip, and an octal limit with blanks and a sign in front. -/
theorem offsets_handled_iff_hexadecimal :
    let around : Surroundings := ⟨.standard, [("a", .file {} (Text.encode "xyz!"))], []⟩
    ((Program.tool .dump).run around (.ofBytes []) ["-s", "0x1z", "-n", " +02", "--", "a"]).out =
      Text.encode "00000001  797a                                      |yz|\n" := by
  intro around
  let a : Arguments (OptionKey Key) :=
    ⟨[(.own .skip, some (Text.ofString "0x1z")), (.own .length, some (Text.ofString " +02"))],
      [Text.ofString "a"]⟩
  have plain : Plain rules around ["-s", "0x1z", "-n", " +02", "--", "a"] a :=
    ⟨read_offsets _ _ _, rfl, rfl, rfl⟩
  have prepared : Prepared rules around _ a .default :=
    plain.prepared (Surroundings.untouched_nil _ _) (accepted_of_plain plain _)
  obtain ⟨log, opened⟩ := LogSettings.exists_ofSettings_default (a.has .verbose)
  have skips : skipGiven a = .ok 1 := by decide
  have limits : limitGiven a = .ok (some 2) := by decide
  have readable : around.tree.openRaw "a" = .ok (Text.encode "xyz!") := by cbv
  have sane : DumpOptions.checkWidth (Settings.default.get .bytesPerLine) = .ok ⟨16, by decide⟩ :=
    rfl
  obtain ⟨ends, -, answers, -⟩ :=
    offsets_handled_iff prepared opened sane rfl readable (.ofBytes [])
  have handled : ¬ Unhandled a := not_unhandled skips (by decide) limits
  have answered := answers (by simpa using fun raised => handled (ends.mp raised))
  generalize (Program.tool .dump).run around _ _ = run at answered
  cases answered with
  | bad_skip skips' negative =>
      cases skips.symm.trans skips'
      exact absurd negative (by decide)
  | bad_limit _ _ limits' rejected =>
      cases limits.symm.trans limits'
      exact absurd rejected (by decide)
  | dumps skips' _ limits' _ cut =>
      cases skips.symm.trans skips'
      cases limits.symm.trans limits'
      have rows : Regroups 16 1 [0x79, 0x7A] [⟨1, [0x79, 0x7A]⟩] :=
        ⟨rfl, by decide, by decide, by decide, by decide⟩
      rw [cut.unique rows]
      show ((dumpLines _ _).flatMap fun line => lineBytes (Text.ofChars line)) = _
      decide +kernel

/-- A skip that lies too far, and one that is too long, both end the program, though each lies
behind the end of the file. -/
theorem skip_past_the_end_unhandled :
    let around : Surroundings := ⟨.standard, [("a", .file {} (Text.encode "x"))], []⟩
    let run (skip : Text) : Outcome :=
      (Program.tool .dump).run around (.ofBytes []) ["-s", skip, "-n", "1", "--", "a"]
    (run "9223372036854775808").raised = true ∧
      (run (Text.ofChars (List.replicate 4301 '1'))).raised = true := by
  intro around run
  let asked (skip : Text) : Arguments (OptionKey Key) :=
    ⟨[(.own .skip, some skip), (.own .length, some (Text.ofString "1"))], [Text.ofString "a"]⟩
  have readable : around.tree.openRaw "a" = .ok (Text.encode "x") := by cbv
  have raised (skip : Text) (unhandled : Unhandled (asked skip)) : (run skip).raised = true := by
    have plain : Plain rules around ["-s", skip, "-n", "1", "--", "a"] (asked skip) :=
      ⟨read_offsets _ _ _, rfl, rfl, rfl⟩
    have prepared : Prepared rules around _ (asked skip) .default :=
      plain.prepared (Surroundings.untouched_nil _ _) (accepted_of_plain plain _)
    obtain ⟨log, opened⟩ := LogSettings.exists_ofSettings_default ((asked skip).has .verbose)
    have sane : DumpOptions.checkWidth (Settings.default.get .bytesPerLine) = .ok ⟨16, by decide⟩ :=
      rfl
    obtain ⟨fault, err, ended⟩ :=
      run_of_unhandled prepared opened sane rfl readable (.ofBytes []) unhandled
    have ended : run skip = ⟨[], err, .raised fault⟩ := ended
    rw [ended]
    rfl
  refine ⟨raised _ (@Unhandled.out_of_reach _ 9223372036854775808 (some 1) ?_ ?_ ?_ ?_),
    raised _ (.skip_too_long (t := Text.ofChars (List.replicate 4301 '1')) rfl ?_)⟩
  · decide
  · decide
  · decide
  · decide
  · rw [offsetChars_ofChars]
    refine ⟨[], List.replicate 4301 '1', [], (List.append_nil _).symm, Offset.isLead_nil, ?_, ?_,
      ?_⟩
    · intro c member
      rw [List.eq_of_mem_replicate member]
      rfl
    · simp
    · rw [List.length_replicate]
      decide

end Bytewise.DumpProgram

import Mathlib
import Bytewise.Proofs.Command.Operands
import Bytewise.Proofs.Dump.Rows
import Bytewise.Proofs.Package.CommandLine

/-!
# Operands are independent, but for those that end a program

The checksum, dump and count programs keep nothing from one operand to the next but whether all went
well, and the counts. So under the default settings a run with several operands does what the runs
with each of them do (`operands_independent_iff`), whatever streams the operands lead to and
wherever those fail. What breaks this is an operand that ends the program by a fault it does not
handle: the operands behind it are not looked at, and there is no row for all of them.

Such an operand is one that the system cannot be asked for. Besides, the checksum and count programs
end at one that they can read and whose name cannot be printed, and the dump program at one in which
it is to jump to a position that the system cannot take.
-/

namespace Bytewise

/-! ## Operands of a command line -/

/-- A command line that has operands, with options that ask neither about the program itself nor for
a settings file. -/
structure HasOperands {α : Type} [DecidableEq α] (own : List (OptionRule α))
    (around : Surroundings) (args : List Text) (a : Arguments (OptionKey α)) : Prop
    extends Plain own around args a where
  inhabited : a.operands ≠ []

/-- Command lines that say the same as another one, but for their operand. -/
def Alone {α : Type} [DecidableEq α] (own : List (OptionRule α)) (around : Surroundings)
    (a : Arguments (OptionKey α)) (alone : Text → List Text) : Prop :=
  ∀ name, around.packages.commandLine.read (allRules own) true (alone name) =
    .ok { a with operands := [name] }

section

variable {α : Type} [DecidableEq α] {own : List (OptionRule α)} {around : Surroundings}
  {args : List Text} {a : Arguments (OptionKey α)} {alone : Text → List Text} {log : LogSettings}

theorem exists_alone (ends : around.packages.commandLine.EndsOptions)
    (read : around.packages.commandLine.read (allRules own) true args = .ok a) :
    ∃ alone, Alone own around a alone := by
  obtain ⟨options, kept⟩ := ends.mixed read
  exact ⟨fun name => options ++ [Text.ofString "--", name], fun name => kept [name]⟩

/-- The options are those that were given. -/
theorem Alone.hasOperands (reads : Alone own around a alone) (plain : Plain own around args a)
    (name : Text) : HasOperands own around (alone name) { a with operands := [name] } where
  read := reads name
  no_version := plain.no_version
  no_help := plain.no_help
  no_config := plain.no_config
  inhabited := List.cons_ne_nil name []

/-- Only the values of a program's own options can be refused where no settings file is asked for.
-/
theorem Plain.accepted (plain : Plain own around args a) {t : FileTree}
    (admitted : ∀ rule ∈ own, ∀ value, a.value? (.own rule.key) = some value →
      rule.form.check t value = .ok ()) :
    ∀ rule ∈ allRules own, ∀ value, a.value? rule.key = some value →
      rule.form.check t value = .ok () := by
  intro rule member value given
  have noConfig : a.value? .config = none := Arguments.value?_of_not_has plain.no_config
  rw [allRules, List.mem_append, List.mem_map] at member
  obtain ⟨mine, among, rfl⟩ | common := member
  · exact admitted mine among value given
  · simp only [commonRules, List.mem_cons, List.not_mem_nil, or_false] at common
    obtain rfl | rfl | rfl | rfl := common
    · simp [noConfig] at given
    · rfl
    · rfl
    · rfl

/-- A program comes to its work with the log that its settings set up. -/
theorem Run.run_start_of_prepared (program : Text) {settings : Settings}
    (prepared : Prepared own around args a settings)
    (opened : LogSettings.ofSettings settings (a.has .verbose) = .ok log) (s : Session) :
    (start program own around none args).run.run s =
      (.ok (a, settings), { s with log := log }) := by
  have resolved : resolveSettings program around none a = loadSettings program around a := rfl
  rw [start, understood_eq program ⟨_, _, args⟩ prepared.understood, resolved,
    loadSettings_eq program prepared.loaded, openLog, opened]
  rfl

/-- Under the default settings a program comes to its work with the log that they set up. -/
theorem Run.run_start (program : Text) (untouched : around.Untouched)
    (plain : Plain own around args a)
    (accepted : ∀ rule ∈ allRules own, ∀ value, a.value? rule.key = some value →
      rule.form.check around.tree value = .ok ())
    (opened : LogSettings.ofSettings .default (a.has .verbose) = .ok log) (s : Session) :
    (start program own around none args).run.run s =
      (.ok (a, .default), { s with log := log }) :=
  run_start_of_prepared program (plain.prepared untouched accepted) opened s

end

/-- The end of a program that goes by whether all operands went well. -/
theorem Run.prints_unless {voice : Voice} (good : Bool) :
    (if good then pure () else exit 1 : Run Unit).Prints voice
      (if good then .ok () else .error (.exit 1)) [] [] := by
  cases good with
  | false => exact prints_throw _
  | true => exact prints_pure ()

/-! ## Reports that end a program -/

namespace Report

variable {β : Type}

theorem ends_echoing (line : Text) (b : β) :
    (echoing line b).ends = true ↔ ¬ line.Printable := by
  rw [echoing]
  split
  next printable => simp [ends, Except.isOk, Except.toBool, printable]
  next stray => simp [ends, Except.isOk, Except.toBool, stray]

theorem ends_complaining (voice : Voice) (program name reason : Text) (b : β) :
    (complaining voice program name reason b).ends = false := rfl

theorem ends_noting (noted : Bytes) (report : Report β) :
    (report.noting noted).ends = report.ends := rfl

theorem raises_ok (b : β) (out err : Bytes) : Raises ⟨.ok b, out, err⟩ := fun _ => nofun

theorem raises_raised (fault : Fault) (out err : Bytes) :
    Raises (⟨.error (.raised fault), out, err⟩ : Report β) := by
  rintro _ ⟨⟩
  exact ⟨fault, rfl⟩

theorem raises_echoing (line : Text) (b : β) : Raises (echoing line b) := by
  rw [echoing]
  split
  · exact raises_ok _ _ _
  · exact raises_raised _ _ _

end Report

/-! ## The checksum program -/

namespace ChecksumProgram

open Run

variable {around : Surroundings} {stdin : Stream} {args : List Text}
  {a : Arguments (OptionKey Key)} {voice : Voice} {supply : Supply}

/-- An operand ends the program: the system cannot be asked for it, or it can be read and its name
is to be shown and cannot be printed. -/
def Stops (supply : Supply) (a : Arguments (OptionKey Key)) (name : Text) : Prop :=
  .char '\x00' ∈ name ∨ a.has (.own .quiet) = false ∧ ¬ name.Printable ∧
    ∃ s, supply name = .ok s ∧ (s.readAll defaultSize).fault? = none

/-- What the program does with operands under the default settings. -/
def handling (voice : Voice) (supply : Supply) (a : Arguments (OptionKey Key)) :
    Handling Bool where
  report name := digestReport voice (requested a) (a.has (.own .quiet))
    (Digest.ofOpened (supply.opened name) (.ok (requested a)) name defaultSize)
  good := id
  raises name := by
    cases Digest.ofOpened (supply.opened name) (.ok (requested a)) name defaultSize with
    | ok d => exact Report.raises_echoing (d.shownLine (a.has (.own .quiet))) true
    | error fault =>
        cases fault with
        | unreadable path reason => exact Report.raises_ok _ _ _
        | _ => exact Report.raises_raised _ _ _
  total_single _ := rfl

theorem printable_shownLine_iff (d : Digest) (quiet : Bool) :
    (d.shownLine quiet).Printable ↔ quiet = true ∨ d.name.Printable := by
  have hex : (Text.ofChars d.hex).Printable := Text.printable_ofChars _
  have gap : Text.Printable "  " := Text.printable_ofChars _
  cases quiet <;> simp [Digest.shownLine, Digest.line, Text.printable_append, hex, gap]

/-- What is digested of a stream that is read to its end has the name of the operand. -/
theorem digest_cases (supply : Supply) (algorithm : Algorithm) {name : Text}
    (noNul : .char '\x00' ∉ name) :
    (∃ d s, Digest.ofOpened (supply.opened name) (.ok algorithm) name defaultSize = .ok d ∧
      d.name = name ∧ supply name = .ok s ∧ (s.readAll defaultSize).fault? = none) ∨
    (∃ reason, Digest.ofOpened (supply.opened name) (.ok algorithm) name defaultSize =
        .error (.unreadable name reason)) ∧
      ¬ ∃ s, supply name = .ok s ∧ (s.readAll defaultSize).fault? = none := by
  cases supplied : supply name with
  | error cause =>
      refine .inr ⟨⟨cause.reason, ?_⟩, by simp⟩
      rw [Supply.opened_of_refused noNul supplied]
      rfl
  | ok s =>
      have digest : Digest.ofOpened (supply.opened name) (.ok algorithm) name defaultSize =
          (Digest.ofStream algorithm name defaultSize s).1 := by
        rw [Supply.opened_of_supplied noNul supplied]
        rfl
      cases fails : (s.readAll defaultSize).fault? with
      | none =>
          let sum := (s.readAll defaultSize).pieces.foldl RunningSum.feed (.start algorithm)
          refine .inl ⟨⟨algorithm, sum.value, sum.size, name⟩, s, ?_, rfl, rfl, fails⟩
          simp only [digest, Digest.ofStream, fails, sum]
      | some fault =>
          obtain ⟨cause, rfl⟩ := Stream.system_of_readFrom fails
          refine .inr ⟨⟨cause.reason, digest.trans ?_⟩, ?_⟩
          · exact Digest.ofStream_of_fault algorithm name fails
          · rintro ⟨_, ⟨⟩, fine⟩
            cases fails.symm.trans fine

theorem ends_iff (voice : Voice) (supply : Supply) (a : Arguments (OptionKey Key))
    (name : Text) : ((handling voice supply a).report name).ends = true ↔ Stops supply a name := by
  by_cases noNul : .char '\x00' ∈ name
  · have digest : Digest.ofOpened (supply.opened name) (.ok (requested a)) name defaultSize =
        .error .nulInName := by
      rw [Supply.opened_of_nul noNul]
      rfl
    simp only [handling, digest, Stops, noNul, true_or, iff_true]
    rfl
  · simp only [Stops, noNul, false_or]
    obtain ⟨d, s, digest, named, supplied, fine⟩ | ⟨⟨reason, digest⟩, unread⟩ :=
      digest_cases supply (requested a) noNul
    · simp only [handling, digest, digestReport, Report.ends_noting, Report.ends_echoing,
        printable_shownLine_iff, named, not_or, Bool.not_eq_true]
      refine and_congr_right fun _ => (and_iff_left ?_).symm
      exact ⟨s, supplied, fine⟩
    · simp only [handling, digest, digestReport, Report.ends_complaining, Bool.false_eq_true,
        false_iff]
      exact fun stops => unread stops.2.2

theorem chooseAlgorithm_default (a : Arguments (OptionKey Key)) :
    chooseAlgorithm a .default = pure (requested a) := by
  rw [chooseAlgorithm, requested]
  cases a.lastOf algorithmOf <;> rfl

theorem accepted_of_noVerify (plain : Plain rules around args a)
    (noVerify : a.value? (.own .verify) = none) (t : FileTree) :
    ∀ rule ∈ allRules rules, ∀ value, a.value? rule.key = some value →
      rule.form.check t value = .ok () := by
  refine plain.accepted fun rule member value given => ?_
  simp only [rules, List.mem_cons, List.not_mem_nil, or_false] at member
  obtain rfl | rfl | rfl | rfl | rfl := member
  · rfl
  · rfl
  · rfl
  · simp [noVerify] at given
  · rfl

theorem outcome_launchOn (untouched : around.Untouched) (names : HasOperands rules around args a)
    (noVerify : a.value? (.own .verify) = none) (notInput : Text.ofString "-" ∉ a.operands)
    (opened : LogSettings.ofSettings .default (a.has .verbose) = .ok log) (supply : Supply)
    (stdin : Stream) :
    (launchOn supply around none args).outcome (around.session stdin) =
      (handling ⟨around.packages.terminal, log⟩ supply a).outcome a.operands := by
  have inhabited : a.operands.isEmpty = false := by simpa using names.inhabited
  rw [launchOn, outcome_bind, run_start program untouched names.toPlain
    (accepted_of_noVerify names.toPlain noVerify around.tree) opened]
  dsimp only
  rw [chooseAlgorithm_default, pure_bind, work, noVerify]
  dsimp only
  rw [inhabited]
  exact Handling.outcome_eq
    (fun name member => prints_digestOperand _ supply fun dash => notInput (dash ▸ member))
    (fun bs => prints_unless (bs.all id)) rfl ⟨rfl, rfl⟩

end ChecksumProgram

/-! ## The dump program -/

namespace DumpProgram

open Run

variable {around : Surroundings} {stdin : Stream} {args : List Text}
  {a : Arguments (OptionKey Key)} {voice : Voice} {supply : Supply} {o : DumpOptions}

/-- An operand ends the program: the system cannot be asked for it, or it has a stream in which a
jump is asked for that the system cannot make. -/
def Stops (supply : Supply) (o : DumpOptions) (name : Text) : Prop :=
  .char '\x00' ∈ name ∨ ∃ s, supply name = .ok s ∧ s.OutOfReach o.skip

theorem result_operandReport (voice : Voice) (o : DumpOptions) (name : Text) (s : Stream) :
    (operandReport voice o name (.ok s)).result =
      (endReport voice name (Dump.ofStream o s).fault?).result := by
  simp only [operandReport, dumpReport, Report.noting]
  split <;> rfl

theorem raises_operandReport (voice : Voice) (o : DumpOptions) (name : Text) (s : Stream) :
    (operandReport voice o name (.ok s)).Raises := by
  rw [Report.Raises, result_operandReport]
  cases (Dump.ofStream o s).fault? with
  | none => exact Report.raises_ok true [] []
  | some fault =>
      cases fault with
      | system cause => exact Report.raises_ok false [] []
      | _ => exact Report.raises_raised _ [] []

def handling (voice : Voice) (supply : Supply) (o : DumpOptions) : Handling Bool where
  report name := operandReport voice o name (supply.opened name)
  good := id
  raises name := by
    cases supply.opened name with
    | ok s => exact raises_operandReport voice o name s
    | error fault =>
        cases fault with
        | system cause => exact Report.raises_ok _ _ _
        | _ => exact Report.raises_raised _ _ _
  total_single _ := rfl

theorem ends_endReport_iff (voice : Voice) (name : Text) (fault? : Option Fault) :
    (endReport voice name fault?).ends = true ↔ ∃ fault, fault? = some fault ∧
      ∀ cause, fault ≠ .system cause := by
  cases fault? with
  | none => simp [endReport, Report.ends, Except.isOk, Except.toBool]
  | some fault => cases fault <;>
      simp [endReport, Report.ends, Report.complaining, Except.isOk, Except.toBool]

theorem ends_iff (voice : Voice) (supply : Supply) (o : DumpOptions) (name : Text) :
    ((handling voice supply o).report name).ends = true ↔ Stops supply o name := by
  show (operandReport voice o name (supply.opened name)).ends = true ↔ _
  by_cases noNul : .char '\x00' ∈ name
  · rw [Supply.opened_of_nul noNul]
    exact iff_of_true rfl (.inl noNul)
  · simp only [Stops, noNul, false_or]
    cases supplied : supply name with
    | error cause =>
        rw [Supply.opened_of_refused noNul supplied]
        exact iff_of_false Bool.false_ne_true (by simp)
    | ok s =>
        rw [Supply.opened_of_supplied noNul supplied, Report.ends, result_operandReport]
        show (endReport voice name (Dump.ofStream o s).fault?).ends = true ↔ _
        rw [ends_endReport_iff]
        have far := other_fault_iff_outOfReach o s
        simpa [Dump.ofStream] using far

theorem accepted_of_plain (plain : Plain rules around args a) (t : FileTree) :
    ∀ rule ∈ allRules rules, ∀ value, a.value? rule.key = some value →
      rule.form.check t value = .ok () := by
  refine plain.accepted fun rule member value given => ?_
  simp only [rules, List.mem_cons, List.not_mem_nil, or_false] at member
  obtain rfl | rfl | rfl | rfl | rfl | rfl | rfl := member <;> rfl

theorem outcome_launchOn (untouched : around.Untouched) (names : HasOperands rules around args a)
    (options : dumpOptions a .default = pure o)
    (opened : LogSettings.ofSettings .default (a.has .verbose) = .ok log) (supply : Supply)
    (stdin : Stream) :
    (launchOn supply around none args).outcome (around.session stdin) =
      (handling ⟨around.packages.terminal, log⟩ supply o).outcome a.operands := by
  have inhabited : a.operands.isEmpty = false := by simpa using names.inhabited
  rw [launchOn, outcome_bind, run_start program untouched names.toPlain
    (accepted_of_plain names.toPlain around.tree) opened]
  dsimp only
  rw [options, pure_bind, work, inhabited]
  exact Handling.outcome_eq (fun name _ => prints_dumpOperand _ supply o name)
    (fun bs => prints_unless (bs.all id)) rfl ⟨rfl, rfl⟩

end DumpProgram

/-! ## The count program -/

namespace WordCountProgram

open Run

variable {around : Surroundings} {stdin : Stream} {args : List Text}
  {a : Arguments (OptionKey Empty)} {voice : Voice} {supply : Supply}

def defaultBuffer : Value := Settings.default.get .bufferSize

/-- The counts of an operand, if it can be counted. -/
def counted (supply : Supply) (name : Text) : Option Tally :=
  (countOpened (supply.opened name) name defaultBuffer).tally.toOption

/-- An operand ends the program: the system cannot be asked for it, or it can be counted and its
name cannot be printed. -/
def Stops (supply : Supply) (name : Text) : Prop :=
  .char '\x00' ∈ name ∨ ¬ name.Printable ∧ (counted supply name).isSome = true

/-- What is written behind the rows of these counts: a row of their sums, if there are several. -/
def totalRow (tallies : List Tally) : Bytes :=
  if 2 ≤ tallies.length then
    lineBytes (Tally.row ⟨(tallies.map (·.lines)).sum, (tallies.map (·.words)).sum,
      (tallies.map (·.chars)).sum, (tallies.map (·.bytes)).sum⟩ "total")
  else []

theorem result_countReport (voice : Voice) (name : Text) (count : FileCount) :
    (countReport voice name count).result = (tallyReport voice name count.tally).result := by
  rw [countReport]
  split <;> rfl

/-- What the program does with operands under the default settings. -/
def handling (voice : Voice) (supply : Supply) : Handling (Option Tally) where
  report name := countReport voice name (countOpened (supply.opened name) name defaultBuffer)
  good := Option.isSome
  total bs := shownTotal (bs.filterMap id)
  raises name := by
    rw [Report.Raises, result_countReport]
    cases (countOpened (supply.opened name) name defaultBuffer).tally with
    | ok tally => exact Report.raises_echoing (tally.row name) (some tally)
    | error fault =>
        cases fault with
        | unreadable path reason => exact Report.raises_ok none [] []
        | _ => exact Report.raises_raised _ [] []
  total_single b := by cases b <;> rfl

theorem foldl_add (tallies : List Tally) (sum : Tally) :
    tallies.foldl (· + ·) sum = ⟨sum.lines + (tallies.map (·.lines)).sum,
      sum.words + (tallies.map (·.words)).sum, sum.chars + (tallies.map (·.chars)).sum,
      sum.bytes + (tallies.map (·.bytes)).sum⟩ := by
  induction tallies generalizing sum with
  | nil => simp
  | cons tally tallies ih =>
      rw [List.foldl_cons, ih]
      simp only [List.map_cons, List.sum_cons, ← Int.add_assoc]
      rfl

theorem shownTotal_eq_totalRow (tallies : List Tally) : shownTotal tallies = totalRow tallies := by
  rw [shownTotal, totalRow, Tally.total, foldl_add]
  simp only [Int.zero_add]
  rfl

theorem printable_row_iff (tally : Tally) (name : Text) :
    (tally.row name).Printable ↔ name.Printable := by
  refine ⟨fun printable => ?_, tally.printable_row⟩
  rw [Tally.row] at printable
  dsimp only at printable
  split at printable
  next empty => simp [List.isEmpty_iff.mp empty, Text.Printable]
  next => exact (Text.printable_append.mp printable).2

/-- With a buffer of the default size a stream is counted, or the system makes a read fail. -/
theorem ofStream_cases (name : Text) (s : Stream) :
    (∃ tally, (Tally.ofStream name (ReadSize.ofValue defaultBuffer) s).1 = .ok tally) ∨
      ∃ reason, (Tally.ofStream name (ReadSize.ofValue defaultBuffer) s).1 =
        .error (.unreadable name reason) := by
  have size : ReadSize.ofValue defaultBuffer = .atMost 16384 := rfl
  simp only [Tally.ofStream]
  cases fails : (s.readAll (ReadSize.ofValue defaultBuffer)).fault? with
  | none => exact .inl ⟨_, rfl⟩
  | some fault =>
      obtain ⟨cause, rfl⟩ := Stream.system_of_readFrom (size ▸ fails)
      exact .inr ⟨cause.reason, rfl⟩

theorem count_cases (supply : Supply) {name : Text} (noNul : .char '\x00' ∉ name) :
    (∃ tally, (countOpened (supply.opened name) name defaultBuffer).tally = .ok tally) ∨
      ∃ reason, (countOpened (supply.opened name) name defaultBuffer).tally =
        .error (.unreadable name reason) := by
  cases supplied : supply name with
  | error cause =>
      refine .inr ⟨cause.reason, ?_⟩
      rw [Supply.opened_of_refused noNul supplied]
      rfl
  | ok s =>
      have reading := ofStream_cases name s
      have size : defaultBuffer.int? = some 16384 := rfl
      rw [Supply.opened_of_supplied noNul supplied]
      simp only [countOpened, size]
      generalize (if s.isFile then s.whole else []) = data
      split
      · exact reading
      · split
        · exact reading
        · split
          · exact reading
          · exact .inl ⟨_, rfl⟩

theorem ends_iff (voice : Voice) (supply : Supply) (name : Text) :
    ((handling voice supply).report name).ends = true ↔ Stops supply name := by
  show (countReport voice name
    (countOpened (supply.opened name) name defaultBuffer)).ends = true ↔ _
  rw [Report.ends, result_countReport, Stops, counted]
  by_cases noNul : .char '\x00' ∈ name
  · rw [Supply.opened_of_nul noNul]
    exact iff_of_true rfl (.inl noNul)
  · obtain ⟨tally, counts⟩ | ⟨reason, fails⟩ := count_cases supply noNul
    · rw [counts]
      show (Report.echoing (tally.row name) (some tally)).ends = true ↔ _
      rw [Report.ends_echoing, printable_row_iff]
      simp [noNul, Except.toOption]
    · rw [fails]
      exact iff_of_false Bool.false_ne_true (by simp [noNul, Except.toOption])

/-- An operand that does not end the program comes to its counts, and its row is written. -/
theorem report_of_goes (voice : Voice) {name : Text} (goes : ¬ Stops supply name) :
    ((handling voice supply).report name).result = .ok (counted supply name) ∧
      ((handling voice supply).report name).out =
        (counted supply name).elim [] fun tally => lineBytes (tally.row name) := by
  obtain ⟨noNul, printable⟩ := not_or.mp goes
  have report (count : FileCount) : (countReport voice name count).out =
      (tallyReport voice name count.tally).out := by
    rw [countReport]
    split <;> rfl
  show (countReport voice name (countOpened (supply.opened name) name defaultBuffer)).result = _ ∧
    (countReport voice name (countOpened (supply.opened name) name defaultBuffer)).out = _
  rw [result_countReport, report, counted]
  rw [counted] at printable
  obtain ⟨tally, counts⟩ | ⟨reason, fails⟩ := count_cases supply noNul
  · have named : name.Printable := by
      by_contra stray
      exact printable ⟨stray, by rw [counts]; rfl⟩
    rw [counts]
    simp only [tallyReport, Report.echoing, (printable_row_iff tally name).mpr named, ↓reduceIte]
    exact ⟨rfl, rfl⟩
  · rw [fails]
    exact ⟨rfl, rfl⟩

/-- Behind operands of which none ends the program stands the row of their sums. -/
theorem total_handling (voice : Voice) {names : List Text}
    (goes : ∀ name ∈ names, ¬ Stops supply name) :
    (handling voice supply).total (names.map (handling voice supply).value) =
      totalRow (names.filterMap (counted supply)) := by
  have values : ∀ name ∈ names, (handling voice supply).value name = counted supply name := by
    intro name member
    rw [Handling.value, (report_of_goes voice (goes name member)).1]
  rw [List.map_congr_left values]
  show shownTotal ((names.map (counted supply)).filterMap id) = _
  rw [List.filterMap_map, shownTotal_eq_totalRow]
  rfl

theorem prints_conclude (voice : Voice) (outcomes : List (Option Tally)) :
    (conclude outcomes).Prints voice
      (if outcomes.all Option.isSome then .ok () else .error (.exit 1))
      (shownTotal (outcomes.filterMap id)) [] := by
  have ends : (if outcomes.all Option.isSome then pure () else exit 1 : Run Unit).Prints voice
    (if outcomes.all Option.isSome then .ok () else .error (.exit 1)) [] [] := prints_unless _
  unfold conclude shownTotal
  by_cases several : 1 < (outcomes.filterMap id).length
  · rw [if_pos several, if_pos several]
    have total : ((Tally.total (outcomes.filterMap id)).row "total").Printable :=
      Tally.printable_row _ (Text.printable_ofChars _)
    exact (prints_echo total).bind_nil ends
  · rw [if_neg several, if_neg several]
    exact ends

theorem outcome_launchOn (untouched : around.Untouched) (names : HasOperands rules around args a)
    (opened : LogSettings.ofSettings .default (a.has .verbose) = .ok log) (supply : Supply)
    (stdin : Stream) :
    (launchOn supply around none args).outcome (around.session stdin) =
      (handling ⟨around.packages.terminal, log⟩ supply).outcome a.operands := by
  have accepted := names.toPlain.accepted (t := around.tree) (by simp [rules])
  have inhabited : a.operands.isEmpty = false := by simpa using names.inhabited
  rw [launchOn, outcome_bind, run_start program untouched names.toPlain accepted opened]
  dsimp only
  rw [inhabited]
  exact Handling.outcome_eq (fun name _ => prints_countOperand _ supply _ name)
    (prints_conclude _) rfl ⟨rfl, rfl⟩

end WordCountProgram

/-! ## All three -/

/-- A run with the operands of a command line, seen against the runs with each of them alone: it
does the same, one after the other, up to the first operand that stops the program. So nothing is
missing exactly if behind such an operand none would have added anything and there was no row of
sums to write. -/
structure Independent (run : List Text → Outcome) (args : List Text) (alone : Text → List Text)
    (names : List Text) (stops : Text → Prop) (total : Bytes) : Prop
    extends Apart (fun name => run (alone name)) names total (run args) where
  raised_iff : ∀ name ∈ names, (run (alone name)).raised = true ↔ stops name
  complete_iff :
    ((run args).out = names.flatMap (fun name => (run (alone name)).out) ++ total ∧
        (run args).err = names.flatMap fun name => (run (alone name)).err) ↔
      ∀ before name behind, names = before ++ name :: behind →
        (∀ other ∈ before, ¬ stops other) → stops name →
        (∀ other ∈ behind, (run (alone other)).out = [] ∧ (run (alone other)).err = []) ∧ total = []

theorem Independent.of_handling {β : Type} [Inhabited β] {run : List Text → Outcome}
    {args : List Text} {alone : Text → List Text} {names : List Text} {stops : Text → Prop}
    {total : Bytes} (h : Handling β) (together : run args = h.outcome names)
    (single : ∀ name ∈ names, run (alone name) = h.outcome [name])
    (ends : ∀ name, (h.report name).ends = true ↔ stops name)
    (totals : (∀ name ∈ names, ¬ stops name) → h.total (names.map h.value) = total) :
    Independent run args alone names stops total := by
  have raised name (member : name ∈ names) :
      (run (alone name)).raised = true ↔ stops name := by
    rw [single name member, (h.single name).2.2, ends]
  have apart : Apart (fun name => run (alone name)) names total (run args) := by
    rw [together]
    refine (h.apart fun goes => totals fun name member stop => ?_).congr single
    exact Bool.false_ne_true ((goes name member).symm.trans ((ends name).mpr stop))
  refine ⟨apart, raised, apart.complete_iff.trans ?_⟩
  refine forall₃_congr fun before name behind => forall_congr' fun parts => ?_
  have here := raised name (by simp [parts])
  have earlier : (∀ other ∈ before, ¬ (run (alone other)).raised = true) ↔
      ∀ other ∈ before, ¬ stops other :=
    forall₂_congr fun other among => not_congr (raised other (by simp [parts, among]))
  rw [here, earlier]

/-- Operands are independent, but for those that stop a program. Under the default settings, and for
every command line with operands none of which stands for standard input, the checksum, dump and
count programs do with all operands what they do with each of them alone, on whatever streams, and
the count program ends with a row of the sums if several operands were counted. This goes up to an
operand that the program is stopped by. On the supply of a file tree these are the programs
themselves. -/
theorem operands_independent_iff {around : Surroundings}
    (ends : around.packages.commandLine.EndsOptions) (untouched : around.Untouched)
    (supply : Supply) (stdin : Stream) :
    (∀ args a, HasOperands ChecksumProgram.rules around args a →
      a.value? (.own .verify) = none → Text.ofString "-" ∉ a.operands →
      let run (supply : Supply) (args : List Text) : Outcome :=
        (ChecksumProgram.launchOn supply around none args).outcome (around.session stdin)
      (Program.tool .checksum).run around stdin args = run around.tree.supply args ∧
      (∃ alone, Alone ChecksumProgram.rules around a alone) ∧
      ∀ alone, Alone ChecksumProgram.rules around a alone →
        Independent (run supply) args alone a.operands (ChecksumProgram.Stops supply a) []) ∧
    (∀ args a o, HasOperands DumpProgram.rules around args a →
      DumpProgram.dumpOptions a .default = pure o →
      let run (supply : Supply) (args : List Text) : Outcome :=
        (DumpProgram.launchOn supply around none args).outcome (around.session stdin)
      (Program.tool .dump).run around stdin args = run around.tree.supply args ∧
      (∃ alone, Alone DumpProgram.rules around a alone) ∧
      ∀ alone, Alone DumpProgram.rules around a alone →
        Independent (run supply) args alone a.operands (DumpProgram.Stops supply o) []) ∧
    (∀ args a, HasOperands WordCountProgram.rules around args a →
      let run (supply : Supply) (args : List Text) : Outcome :=
        (WordCountProgram.launchOn supply around none args).outcome (around.session stdin)
      let tallies := a.operands.filterMap (WordCountProgram.counted supply)
      (Program.tool .wordCount).run around stdin args = run around.tree.supply args ∧
      (∃ alone, Alone WordCountProgram.rules around a alone) ∧
      ∀ alone, Alone WordCountProgram.rules around a alone →
        Independent (run supply) args alone a.operands (WordCountProgram.Stops supply)
          (WordCountProgram.totalRow tallies) ∧
        ∀ name, ¬ WordCountProgram.Stops supply name → (run supply (alone name)).out =
          (WordCountProgram.counted supply name).elim [] fun tally =>
            Run.lineBytes (tally.row name)) := by
  refine ⟨?_, ?_, ?_⟩
  · intro args a names noVerify notInput run
    obtain ⟨log, opened⟩ := LogSettings.exists_ofSettings_default (a.has .verbose)
    let h := ChecksumProgram.handling ⟨around.packages.terminal, log⟩ supply a
    refine ⟨rfl, exists_alone ends names.read, fun alone reads => ?_⟩
    refine .of_handling h ?_ (fun name member => ?_) (ChecksumProgram.ends_iff _ supply a)
      fun _ => rfl
    · exact ChecksumProgram.outcome_launchOn untouched names noVerify notInput opened supply stdin
    · have single : Text.ofString "-" ∉ [name] := fun dash =>
        notInput (List.mem_singleton.mp dash ▸ member)
      exact ChecksumProgram.outcome_launchOn untouched (reads.hasOperands names.toPlain name)
        noVerify single opened supply stdin
  · intro args a o names options run
    obtain ⟨log, opened⟩ := LogSettings.exists_ofSettings_default (a.has .verbose)
    let h := DumpProgram.handling ⟨around.packages.terminal, log⟩ supply o
    refine ⟨rfl, exists_alone ends names.read, fun alone reads => ?_⟩
    refine .of_handling h ?_ (fun name _ => ?_) (DumpProgram.ends_iff _ supply o) fun _ => rfl
    · exact DumpProgram.outcome_launchOn untouched names options opened supply stdin
    · exact DumpProgram.outcome_launchOn untouched (reads.hasOperands names.toPlain name) options
        opened supply stdin
  · intro args a names run tallies
    obtain ⟨log, opened⟩ := LogSettings.exists_ofSettings_default (a.has .verbose)
    let h := WordCountProgram.handling ⟨around.packages.terminal, log⟩ supply
    have single {alone} (reads : Alone WordCountProgram.rules around a alone) (name : Text) :
        run supply (alone name) = h.outcome [name] :=
      WordCountProgram.outcome_launchOn untouched (reads.hasOperands names.toPlain name) opened
        supply stdin
    refine ⟨rfl, exists_alone ends names.read, fun alone reads => ⟨?_, fun name goes => ?_⟩⟩
    · refine .of_handling h ?_ (fun name _ => single reads name)
        (WordCountProgram.ends_iff _ supply) fun goes => ?_
      · exact WordCountProgram.outcome_launchOn untouched names opened supply stdin
      · exact WordCountProgram.total_handling _ goes
    · rw [single reads, (h.single name).1]
      exact (WordCountProgram.report_of_goes _ goes).2

/-- A file that is named twice is counted twice, and a failing read in between changes nothing. -/
theorem operands_independent_iff_failing :
    let broken : Stream := { Stream.ofBytes [] with failure := some (0, .inputOutput) }
    let supply : Supply := fun name =>
      .ok (if name = "broken" then broken else .ofBytes (Text.encode "x y\n"))
    let around : Surroundings := ⟨.standard, [], []⟩
    let run (args : List Text) : Outcome :=
      (WordCountProgram.launchOn supply around none args).outcome (around.session (.ofBytes []))
    let names : List Text := ["a", "broken", "a"]
    (run names).out = names.flatMap (fun name => (run ["--", name]).out) ++
        Run.lineBytes (Tally.row ⟨2, 4, 8, 8⟩ "total") ∧
      (run names).err = names.flatMap fun name => (run ["--", name]).err := by
  intro broken supply around run names
  have untouched : around.Untouched := Surroundings.untouched_nil _ _
  have ends : around.packages.commandLine.EndsOptions := CommandLinePackage.standard_endsOptions
  have read : HasOperands WordCountProgram.rules around names ⟨[], names⟩ :=
    ⟨⟨rfl, rfl, rfl, rfl⟩, by decide⟩
  obtain ⟨-, -, each⟩ := (operands_independent_iff ends untouched supply (.ofBytes [])).2.2 _ _ read
  obtain ⟨independent, -⟩ :=
    each (fun name => ["--", name]) fun name => ends.behind_hyphens _ _ [name]
  have goes : ∀ name ∈ names, ¬ WordCountProgram.Stops supply name := by
    have named : ∀ name ∈ names, .char '\x00' ∉ name ∧ name.Printable := by decide
    rintro name member (nul | ⟨stray, -⟩)
    · exact (named name member).1 nul
    · exact stray (named name member).2
  have sums : WordCountProgram.totalRow (names.filterMap (WordCountProgram.counted supply)) =
    Run.lineBytes (Tally.row ⟨2, 4, 8, 8⟩ "total") := by decide +kernel
  rw [← sums]
  refine independent.complete_iff.mpr fun before name behind split _ stops => ?_
  have operands : names = before ++ name :: behind := split
  have member : name ∈ names := by simp [operands]
  exact absurd stops (goes name member)

/-- A file whose name cannot be printed ends the run, and the one behind it is not digested. -/
theorem operand_hidden_by_stray :
    let name : Text := [.stray 0xFF]
    let around : Surroundings := ⟨.standard,
      [(name, .file {} (Text.encode "x")), ("a", .file {} (Text.encode "x"))], []⟩
    let run := (Program.tool .checksum).run around (.ofBytes [])
    (run [name]).out = [] ∧ (run ["a"]).out = Text.encode "8cdc1683  a\n" ∧
      (run [name, "a"]).out = [] := by
  intro name around run
  have untouched : around.Untouched := Surroundings.untouched_nil _ _
  obtain ⟨log, opened⟩ := LogSettings.exists_ofSettings_default false
  let h := ChecksumProgram.handling ⟨around.packages.terminal, log⟩ around.tree.supply ⟨[], []⟩
  have runs {names : List Text} (read : HasOperands ChecksumProgram.rules around names ⟨[], names⟩)
      (notInput : Text.ofString "-" ∉ names) : run names = h.outcome names :=
    ChecksumProgram.outcome_launchOn untouched read rfl notInput opened _ _
  have stray : run [name] = _ := runs ⟨⟨rfl, rfl, rfl, rfl⟩, by decide⟩ (by decide)
  have plain : run ["a"] = _ := runs ⟨⟨rfl, rfl, rfl, rfl⟩, by decide⟩ (by decide)
  have together : run [name, "a"] = _ := runs ⟨⟨rfl, rfl, rfl, rfl⟩, by decide⟩ (by decide)
  rw [stray, plain, together]
  exact ⟨by cbv, by cbv, by cbv⟩

end Bytewise

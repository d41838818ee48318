import Bytewise.Proofs.Command.Channels
import Bytewise.Proofs.Command.Checksum
import Bytewise.Proofs.Command.WordCount

/-!
# Operands that lead to any stream

What the system opens under the name of an operand may be any stream, which hands over its bytes in
whatever pieces and may fail midway. What one operand comes to is a `Report`: a value or the end of
the program, and what is added to the channels. It does not depend on what was done before, because
it only depends on what was opened (`ChecksumProgram.prints_digestOperand`,
`DumpProgram.prints_dumpOperand`, `WordCountProgram.prints_countOperand`).
-/

namespace Bytewise

instance (t : Text) : Decidable t.Printable := inferInstanceAs (Decidable (∀ s ∈ t, _))

/-- What handling an operand comes to, and what it adds to the channels. -/
structure Report (β : Type) where
  result : Except Halt β
  out : Bytes := []
  err : Bytes := []

namespace Report

variable {β : Type}

/-- A line on standard output and a value, unless the line cannot be printed. -/
def echoing (line : Text) (b : β) : Report β :=
  if line.Printable then { result := .ok b, out := Run.lineBytes line }
  else { result := .error (.raised .unencodable) }

/-- A message about something named, and a value. -/
def complaining (voice : Voice) (program name reason : Text) (b : β) : Report β where
  result := .ok b
  err := Run.complaint voice program (name ++ ": " ++ reason)

/-- A report with bytes in front of what it adds to standard output. -/
def showing (shown : Bytes) (report : Report β) : Report β :=
  { report with out := shown ++ report.out }

/-- A report with bytes in front of what it adds to standard error. -/
def noting (noted : Bytes) (report : Report β) : Report β :=
  { report with err := noted ++ report.err }

end Report

namespace Run

variable {β : Type} {voice : Voice} {m : Run β} {report : Report β}

def PrintsReport (voice : Voice) (m : Run β) (report : Report β) : Prop :=
  m.Prints voice report.result report.out report.err

theorem printsReport_echo (line : Text) (b : β) :
    PrintsReport voice (do echo line; return b) (.echoing line b) := by
  rw [Report.echoing]
  split
  next printable => exact (prints_echo printable).bind_nil (prints_pure b)
  next stray => exact (prints_echo_stray stray).bind_error

theorem printsReport_complainOf (program name reason : Text) (b : β) :
    PrintsReport voice (do complainOf program name reason; return b)
      (.complaining voice program name reason b) :=
  (prints_complain _ _).bind_nil (prints_pure b)

theorem printsReport_throw (halt : Halt) :
    PrintsReport voice (throw halt) ({ result := .error halt } : Report β) :=
  prints_throw halt

theorem PrintsReport.after_record (prints : PrintsReport voice m report) (rec : LogRecord) :
    PrintsReport voice (record rec >>= fun _ => m) (report.noting (recorded voice rec)) :=
  (prints_record rec).bind prints

theorem PrintsReport.after_lines (prints : PrintsReport voice m report) (lines : List (List Char)) :
    PrintsReport voice (lines.forM (fun line => echo (Text.ofChars line)) >>= fun _ => m)
      (report.showing (lines.flatMap fun line => lineBytes (Text.ofChars line))) :=
  (prints_forM_echo (fun _ => Text.printable_ofChars _) lines).bind prints

end Run

/-! ## Supplies -/

namespace Supply

variable {supply : Supply} {name : Text} {fault : Fault} {s : Stream}

theorem opened_of_nul (nul : .char '\x00' ∈ name) : supply.opened name = .error .nulInName :=
  if_pos nul

theorem opened_of_supplied (noNul : .char '\x00' ∉ name) (supplied : supply name = .ok s) :
    supply.opened name = .ok s := by
  rw [opened, if_neg noNul, supplied]
  rfl

theorem opened_of_refused (noNul : .char '\x00' ∉ name) {cause : SystemFault}
    (refused : supply name = .error cause) : supply.opened name = .error (.system cause) := by
  rw [opened, if_neg noNul, refused]
  rfl

end Supply

/-! ## Reads of a sensible size -/

namespace Stream

variable {s s' : Stream} {fault : Fault} {count : Nat}

theorem system_of_readFrom {done : List Bytes}
    (failed : (readFrom (.atMost count) done s).fault? = some fault) :
    ∃ cause, fault = .system cause := by
  fun_induction readFrom (.atMost count) done s with
  | case1 done s fault' refused =>
      cases failed
      obtain ⟨limit, cause, -, system, -⟩ := failure_of_read refused
      exact ⟨cause, system⟩
  | case2 done s s' handed => cases failed
  | case3 done s piece s' handed _ _ ih => exact ih failed

end Stream

/-! ## Checksums -/

namespace ChecksumProgram

open Run

variable {voice : Voice} {algorithm : Algorithm} {quiet : Bool} {name : Text}

/-- What printing a digest comes to. -/
def digestReport (voice : Voice) (algorithm : Algorithm) (quiet : Bool) :
    Except Fault Digest → Report Bool
  | .ok d =>
    (Report.echoing (d.shownLine quiet) true).noting (recorded voice ⟨.checksumCommand,
      d.name ++ ": " ++ number d.size ++ " bytes, " ++ algorithm.label⟩)
  | .error (.unreadable path reason) => .complaining voice program path reason false
  | .error fault => { result := .error (.raised fault) }

theorem prints_printDigest (voice : Voice) (algorithm : Algorithm) (quiet : Bool)
    (digest : Except Fault Digest) :
    PrintsReport voice (printDigest algorithm quiet digest)
      (digestReport voice algorithm quiet digest) := by
  cases digest with
  | ok d => exact (printsReport_echo _ _).after_record _
  | error fault =>
      cases fault with
      | unreadable path reason => exact printsReport_complainOf program path reason false
      | _ => exact printsReport_throw _

theorem prints_digestOperand (voice : Voice) (files : Supply) {algorithm : Algorithm}
    {size : ReadSize} {quiet : Bool} {name : Text} (notInput : name ≠ Text.ofString "-") :
    PrintsReport voice (digestOperand files algorithm size quiet name)
      (digestReport voice algorithm quiet
        (Digest.ofOpened (files.opened name) (.ok algorithm) name size)) := by
  rw [digestOperand, if_neg notInput, pure_bind]
  exact prints_printDigest voice algorithm quiet _

end ChecksumProgram

/-! ## Dumps -/

namespace DumpProgram

open Run

def endReport (voice : Voice) (name : Text) : Option Fault → Report Bool
  | none => { result := .ok true }
  | some (.system cause) => .complaining voice program name cause.reason false
  | some fault => { result := .error (.raised fault) }

/-- What a dump comes to: its lines, and then its end. -/
def dumpReport (voice : Voice) (name : Text) (d : Dump) (jumpFails : Bool) : Report Bool :=
  let report := (endReport voice name d.fault?).showing
    (d.lines.flatMap fun line => lineBytes (Text.ofChars line))
  if jumpFails then report.noting (recorded voice ⟨.dump,
    "seek failed, skipping by reading: " ++ SystemFault.logged .illegalSeek none⟩)
  else report

theorem prints_dumpInput (voice : Voice) (name : Text) (d : Dump) (jumpFails : Bool) :
    PrintsReport voice (dumpInput name d jumpFails) (dumpReport voice name d jumpFails) := by
  have ends : PrintsReport voice (match d.fault? with
      | none => return true
      | some (.system cause) => do
        complainOf program name cause.reason
        return false
      | some fault => throw (.raised fault)) (endReport voice name d.fault?) := by
    cases d.fault? with
    | none => exact prints_pure true
    | some fault =>
        cases fault with
        | system cause => exact printsReport_complainOf program name cause.reason false
        | _ => exact printsReport_throw _
  cases jumpFails with
  | false => exact ends.after_lines d.lines
  | true => exact (ends.after_lines d.lines).after_record _

/-- What an operand comes to. -/
def operandReport (voice : Voice) (o : DumpOptions) (name : Text) :
    Except Fault Stream → Report Bool
  | .ok s => (dumpReport voice name (Dump.ofStream o s) (s.jumpFails o.skip)).noting
    (recorded voice ⟨.dumpCommand, "Dumping " ++ name ++ " (" ++ o.layout.name ++ ")"⟩)
  | .error (.system cause) => .complaining voice program name cause.reason false
  | .error fault => { result := .error (.raised fault) }

theorem prints_dumpOperand (voice : Voice) (files : Supply) (o : DumpOptions) (name : Text) :
    PrintsReport voice (dumpOperand files o name)
      (operandReport voice o name (files.opened name)) := by
  rw [dumpOperand]
  cases files.opened name with
  | ok s => exact (prints_dumpInput voice name _ _).after_record _
  | error fault =>
      cases fault with
      | system cause => exact printsReport_complainOf program name cause.reason false
      | _ => exact printsReport_throw _

end DumpProgram

/-! ## Counts -/

namespace WordCountProgram

open Run

def tallyReport (voice : Voice) (name : Text) : Except Fault Tally → Report (Option Tally)
  | .ok tally => .echoing (tally.row name) (some tally)
  | .error (.unreadable path reason) => .complaining voice program path reason none
  | .error fault => { result := .error (.raised fault) }

/-- What an operand comes to. -/
def countReport (voice : Voice) (name : Text) (count : FileCount) : Report (Option Tally) :=
  match count.unmapped with
  | some cause => (tallyReport voice name count.tally).noting (recorded voice
    ⟨.wordCount, "mmap failed for " ++ name ++ ", falling back to reads: " ++ cause⟩)
  | none => tallyReport voice name count.tally

theorem prints_report (voice : Voice) (name : Text) (counts : Except Fault Tally) :
    PrintsReport voice (report name counts) (tallyReport voice name counts) := by
  cases counts with
  | ok tally => exact printsReport_echo _ _
  | error fault =>
      cases fault with
      | unreadable path reason => exact printsReport_complainOf program path reason none
      | _ => exact printsReport_throw _

theorem prints_countOperand (voice : Voice) (files : Supply) (buffer : Value) (name : Text) :
    PrintsReport voice (countOperand files buffer name)
      (countReport voice name (countOpened (files.opened name) name buffer)) := by
  have reports := prints_report voice name (countOpened (files.opened name) name buffer).tally
  unfold countOperand countReport
  dsimp only
  cases (countOpened (files.opened name) name buffer).unmapped with
  | none => exact reports
  | some cause => exact reports.after_record _

end WordCountProgram

end Bytewise

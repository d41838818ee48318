import Bytewise.Package.Standard
import Bytewise.Proofs.Checksum.Verdict
import Bytewise.Proofs.Command.Checksum

/-!
# Verifying a listing from the command line

The program that verifies a listing prints a line for each claim and tells by its exit status
whether the listing passes. There are two ways for it to end before it can tell: a line stops the
verification, or the name in a claim has a stray byte and cannot be printed. So its exit status is
zero if and only if there is a line that is not blank, each such line makes a claim that holds and
whose name can be printed, and the read size is one that the system can take
(`verification_accounts_and_decides`).
-/

namespace Bytewise.ChecksumProgram

open Run

variable {t : FileTree} {a : Algorithm} {size : ReadSize} {lines : List Text}

def report (v : Verification) : Bytes := v.entries.flatMap fun e => lineBytes e.line

theorem writes_verifyListing_stopped {fault : Fault}
    (stopped : (verify t (.ok a) size none lines).stopped = some fault) :
    Writes (verifyListing t a size lines) (.error (.raised fault)) [] := by
  unfold verifyListing
  apply (writes_forM_nil fun _ _ => writes_record _).then
  rw [stopped]
  exact (writes_throw _).bind_error

theorem writes_verifyListing_stray (going : (verify t (.ok a) size none lines).stopped = none)
    (stray : ∃ e ∈ (verify t (.ok a) size none lines).entries, ¬ e.line.Printable) :
    ∃ data, Writes (verifyListing t a size lines) (.error (.raised .unencodable)) data := by
  obtain ⟨data, ends⟩ := writes_forM_echo_stray stray
  refine ⟨data, ?_⟩
  unfold verifyListing
  apply (writes_forM_nil fun _ _ => writes_record _).then
  rw [going]
  exact ends.bind_error

/-- A warning in front of a part changes neither its end nor what it writes. -/
theorem writes_unless_complain {c : Prop} [Decidable c] {m : Run Unit} {r : Except Halt Unit}
    {data : Bytes} (message : Text) (writes : Writes m r data) :
    Writes (if c then m else do complain program message; m) r data := by
  split
  · exact writes
  · exact (writes_complain _ _).then writes

theorem writes_verifyListing (going : (verify t (.ok a) size none lines).stopped = none)
    (printable : ∀ e ∈ (verify t (.ok a) size none lines).entries, e.line.Printable) :
    Writes (verifyListing t a size lines)
      (if (verify t (.ok a) size none lines).passes then .ok () else .error (.exit 1))
      (report (verify t (.ok a) size none lines)) := by
  unfold verifyListing
  generalize verify t (.ok a) size none lines = v at going printable ⊢
  have failures : decide ((v.entries.filter (!·.ok)).length ≠ 0) = !v.entries.all (·.ok) := by
    rw [Bool.eq_iff_iff]
    simp
  have decided : (decide ((v.entries.filter (!·.ok)).length ≠ 0) || !v.malformed.isEmpty ||
      v.entries.isEmpty) = !v.passes := by
    rw [failures, Verification.passes]
    cases v.malformed.isEmpty <;> cases v.entries.isEmpty <;> cases v.entries.all (·.ok) <;> rfl
  apply (writes_forM_nil fun _ _ => writes_record _).then
  rw [going, ← List.append_nil (report v)]
  apply Writes.bind
  · apply writes_forM
    intro e member
    exact writes_echo (printable e member)
  · apply writes_unless_complain
    apply writes_unless_complain
    rw [decided]
    cases v.passes with
    | true => exact writes_pure ()
    | false => exact writes_throw _

/-! ## The exit status -/

variable {around : Surroundings} {stdin : Stream} {args : List Text} {s : Session}

/-- The exit status is zero if and only if the verification comes to its end, its lines can be
printed, and it passes. -/
theorem status_eq_zero_iff_passes (reaches : Reaches around stdin args a size lines s) :
    ((Program.tool .checksum).run around stdin args).status = 0 ↔
      (verify around.tree (.ok a) size none lines).stopped = none ∧
      (∀ e ∈ (verify around.tree (.ok a) size none lines).entries, e.line.Printable) ∧
      (verify around.tree (.ok a) size none lines).passes = true := by
  have leads := launch_of_reaches reaches
  cases stopped : (verify around.tree (.ok a) size none lines).stopped with
  | some fault =>
      have ending := (Program.run_of_writes leads (writes_verifyListing_stopped stopped)).2
      simp [Outcome.status, ending, Halt.ofResult]
  | none =>
      by_cases printable : ∀ e ∈ (verify around.tree (.ok a) size none lines).entries,
          e.line.Printable
      · have ending := (Program.run_of_writes leads (writes_verifyListing stopped printable)).2
        cases passes : (verify around.tree (.ok a) size none lines).passes with
        | true => simpa [Outcome.status, ending, Halt.ofResult, passes] using printable
        | false => simp [Outcome.status, ending, Halt.ofResult, passes]
      · have stray : ∃ e ∈ (verify around.tree (.ok a) size none lines).entries,
            ¬ e.line.Printable := by simpa using printable
        obtain ⟨data, writes⟩ := writes_verifyListing_stray stopped stray
        have ending := (Program.run_of_writes leads writes).2
        simp [Outcome.status, ending, Halt.ofResult, printable]

/-- The line of an entry can be printed if and only if its name can. -/
theorem printable_line_iff {e : CheckEntry} : e.line.Printable ↔ e.name.Printable := by
  rw [CheckEntry.line]
  split
  · simp [Text.printable_append, Text.ofString, Text.printable_ofChars]
  · simp [Text.printable_append, Text.ofString, Text.printable_ofChars]

theorem printable_entries_iff {base : Option Path} (asks : size.Asks)
    (going : ∀ c ∈ claims lines, ¬ c.Stops t size base) :
    (∀ e ∈ (verify t (.ok a) size base lines).entries, e.line.Printable) ↔
      ∀ c ∈ claims lines, c.name.Printable := by
  rw [(verify_going asks going).2.1]
  simp only [List.forall_mem_map, printable_line_iff, CheckLine.entry]

/-- The exit status in terms of the lines: besides what the listing claims, it depends on whether
the read size is one that the system can take and whether the names can be printed. -/
theorem status_eq_zero_iff {n : Int} (positive : 0 < n)
    (reaches : Reaches around stdin args a (.ofInt n) lines s) :
    ((Program.tool .checksum).run around stdin args).status = 0 ↔
      n < sizeBound ∧ (∃ line ∈ lines, line.isBlank = false) ∧
      ∀ line ∈ lines, line.isBlank = false →
        ∃ c, CheckLine.parse line = .ok c ∧ c.Holds around.tree a none ∧ c.name.Printable := by
  have asks := ReadSize.asks_ofInt positive
  rw [status_eq_zero_iff_passes reaches, stopped_eq_none_iff a asks]
  constructor
  · rintro ⟨going, printable, passes⟩
    rw [printable_entries_iff asks going] at printable
    obtain ⟨⟨line, member, visible⟩, all⟩ := (passes_verify_iff asks going).mp passes
    refine ⟨?_, ⟨line, member, visible⟩, ?_⟩
    · obtain ⟨c, parsed, data, opened, -⟩ := all line member visible
      apply Int.not_le.mp
      intro large
      exact going c (mem_claims.mpr ⟨line, member, parsed⟩)
        (.inr ⟨ReadSize.ofInt_of_large large, data, opened⟩)
    · intro line member visible
      obtain ⟨c, parsed, holds⟩ := all line member visible
      exact ⟨c, parsed, holds, printable c (mem_claims.mpr ⟨line, member, parsed⟩)⟩
  · rintro ⟨fits, some, all⟩
    have each : ∀ c ∈ claims lines, c.Holds around.tree a none ∧ c.name.Printable :=
      forall_mem_claims all
    have going : ∀ c ∈ claims lines, ¬ c.Stops around.tree (.ofInt n) none := by
      intro c claimed
      obtain ⟨⟨data, opened, -⟩, -⟩ := each c claimed
      exact CheckLine.not_stops_of_opened (ReadSize.reads_ofInt positive fits) opened
    refine ⟨going, ?_, ?_⟩
    · rw [printable_entries_iff asks going]
      exact fun c claimed => (each c claimed).2
    · rw [passes_verify_iff asks going]
      refine ⟨some, fun line member visible => ?_⟩
      obtain ⟨c, parsed, holds, -⟩ := all line member visible
      exact ⟨c, parsed, holds⟩

/-- A verification that succeeds prints that each claim holds. -/
theorem out_of_status_eq_zero (asks : size.Asks)
    (reaches : Reaches around stdin args a size lines s)
    (zero : ((Program.tool .checksum).run around stdin args).status = 0) :
    ((Program.tool .checksum).run around stdin args).out =
      s.out.bytes ++
        (claims lines).flatMap fun c => lineBytes (c.name ++ Text.ofString ": OK") := by
  obtain ⟨going, printable, passes⟩ := (status_eq_zero_iff_passes reaches).mp zero
  have writes := writes_verifyListing going printable
  obtain ⟨entries, -, -⟩ := verify_accounts asks going
  have all : ∀ c ∈ claims lines, (c.entry around.tree a none).ok = true := by
    rw [Verification.passes, Bool.and_eq_true, entries] at passes
    simpa using passes.2
  have reported : report (verify around.tree (.ok a) size none lines) =
      (claims lines).flatMap fun c => lineBytes (c.name ++ Text.ofString ": OK") := by
    rw [report, entries, List.flatMap_map]
    apply List.flatMap_congr
    intro c claimed
    obtain ⟨data, opened, -⟩ := CheckLine.ok_entry_iff.mp (all c claimed)
    have read : (c.entry around.tree a none).found = .ok (a.checksum data) := by
      simp [CheckLine.entry, CheckLine.found, opened]
    rw [CheckEntry.line_of_found read, if_pos (all c claimed)]
    rfl
  rw [(Program.run_of_writes (launch_of_reaches reaches) writes).1, reported]

/-- What a verification finds accounts for every line that is not blank, in the order of the lines
and line by line; and the exit status of the program tells whether there is such a line and each of
them makes a claim that holds, as long as the names can be printed and the read size is one that the
system can take. -/
theorem verification_accounts_and_decides (a : Algorithm) {n : Int} (positive : 0 < n) :
    (∀ (t : FileTree) (base : Option Path) (lines : List Text),
      (verify t (.ok a) (.ofInt n) base lines).stopped = none →
      (verify t (.ok a) (.ofInt n) base lines).entries.length +
          (verify t (.ok a) (.ofInt n) base lines).malformed.length =
        lines.countP (!·.isBlank) ∧
      (verify t (.ok a) (.ofInt n) base lines).entries =
        (claims lines).map (·.entry t a base)) ∧
    (∀ (t : FileTree) (base : Option Path) (lines more : List Text),
      (verify t (.ok a) (.ofInt n) base lines).stopped = none →
      (verify t (.ok a) (.ofInt n) base more).stopped = none →
      (verify t (.ok a) (.ofInt n) base (lines ++ more)).stopped = none ∧
      (verify t (.ok a) (.ofInt n) base (lines ++ more)).entries =
        (verify t (.ok a) (.ofInt n) base lines).entries ++
          (verify t (.ok a) (.ofInt n) base more).entries ∧
      (verify t (.ok a) (.ofInt n) base (lines ++ more)).malformed.length =
        (verify t (.ok a) (.ofInt n) base lines).malformed.length +
          (verify t (.ok a) (.ofInt n) base more).malformed.length) ∧
    ∀ (around : Surroundings) (stdin : Stream) (args : List Text) (lines : List Text)
      (s : Session), Reaches around stdin args a (.ofInt n) lines s →
      (((Program.tool .checksum).run around stdin args).status = 0 ↔
        n < sizeBound ∧ (∃ line ∈ lines, line.isBlank = false) ∧
        ∀ line ∈ lines, line.isBlank = false →
          ∃ c, CheckLine.parse line = .ok c ∧ c.Holds around.tree a none ∧ c.name.Printable) := by
  have asks := ReadSize.asks_ofInt positive
  refine ⟨?_, ?_, ?_⟩
  · intro t base lines returns
    obtain ⟨entries, -, accounts⟩ := verify_accounts asks returns
    exact ⟨accounts, entries⟩
  · intro t base lines more returns returns'
    exact verify_append asks returns returns'
  · intro around stdin args lines s reaches
    exact status_eq_zero_iff positive reaches

theorem asksVerification_list (t : FileTree) :
    AsksVerification ⟨.standard, t, []⟩ ["--verify", "list"] .crc32 "list" :=
  ⟨⟨[(.own .verify, some "list")], []⟩, ⟨rfl, rfl, rfl, rfl⟩, rfl, rfl⟩

/-- A listing with one right claim and a blank line. -/
theorem verification_accounts_and_decides_listed :
    let around : Surroundings := ⟨.standard,
      [("a", .file {} [0x78]), ("list", .file {} (Text.encode "8cdc1683  a\n\n"))], []⟩
    0 < (8192 : Int) ∧
      ((Program.tool .checksum).run around (.ofBytes []) ["--verify", "list"]).status = 0 := by
  intro around
  have positive : (0 : Int) < 8192 := by decide
  have lines : Text.lines (Utf8.decode (Text.encode "8cdc1683  a\n\n")) =
      [Text.ofString "8cdc1683  a", []] := by decide
  have supplies : Supplies around (.ofBytes []) "list" (Text.encode "8cdc1683  a\n\n") := by cbv
  obtain ⟨s, reaches, -⟩ :=
    exists_reaches (Surroundings.untouched_nil _ _) (asksVerification_list _) supplies (by decide)
  rw [lines] at reaches
  obtain ⟨-, -, decides⟩ := verification_accounts_and_decides .crc32 positive
  refine ⟨positive, (decides around _ _ _ s reaches).mpr ⟨by decide, ?_, ?_⟩⟩
  · exact ⟨_, List.mem_cons_self, by decide⟩
  · intro line member visible
    obtain rfl | rfl : line = Text.ofString "8cdc1683  a" ∨ line = [] := by simpa using member
    · exact ⟨⟨0x8cdc1683, "a"⟩, by decide, ⟨[0x78], by cbv, by decide⟩, Text.printable_ofChars _⟩
    · cases visible

/-- A listing with one claim, which is right, about a file whose name has a stray byte: the exit
status is not zero. -/
theorem status_of_right_claim_stray :
    let name : Text := [.stray 0xFF]
    let listing : Bytes := Text.encode ("8cdc1683  " ++ name ++ "\n")
    let around : Surroundings :=
      ⟨.standard, [(name, .file {} [0x78]), ("list", .file {} listing)], []⟩
    (∃ c, (Text.lines (Utf8.decode listing)).map CheckLine.parse = [.ok c] ∧
      c.Holds around.tree .crc32 none) ∧
      ((Program.tool .checksum).run around (.ofBytes []) ["--verify", "list"]).status ≠ 0 := by
  intro name listing around
  have claimed : claims (Text.lines (Utf8.decode listing)) = [⟨0x8cdc1683, name⟩] := by decide
  have supplies : Supplies around (.ofBytes []) "list" listing := by cbv
  refine ⟨⟨⟨0x8cdc1683, name⟩, by decide, [0x78], by cbv, by decide⟩, ?_⟩
  obtain ⟨s, reaches, -⟩ :=
    exists_reaches (Surroundings.untouched_nil _ _) (asksVerification_list _) supplies (by decide)
  intro zero
  obtain ⟨returns, printable, -⟩ := (status_eq_zero_iff_passes reaches).mp zero
  have asks := ReadSize.asks_ofInt (n := 8192) (by decide)
  have going := (stopped_eq_none_iff .crc32 asks).mp returns
  have names := (printable_entries_iff asks going).mp printable
  rw [claimed] at names
  simp [name, Text.Printable, Symbol.char?] at names

end Bytewise.ChecksumProgram

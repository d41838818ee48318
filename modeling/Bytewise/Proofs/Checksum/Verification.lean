import Bytewise.Proofs.Checksum.Digest
import Bytewise.Proofs.Checksum.Format
import Bytewise.Proofs.Repetition
import Bytewise.Text.Utf8

/-!
# Verifying a listing, line by line

A line of a listing is blank, malformed, or makes a claim: a checksum for a name. `claims` are the
claims of a listing in order. Verification turns each claim into an entry and counts the malformed
lines, and each line is dealt with by itself.

Two claims cannot be turned into an entry: one whose name cannot be handed to the system, and any
claim about a file that can be opened while reads are asked for in a size that the system cannot
take. Such a claim `Stops` the verification: what comes before it is dealt with and what comes after
it is lost (`verify_stops`). If there is none, the verification comes to its end and every line is
accounted for (`verify_going`). `verify_survives_iff` is the whole of it.
-/

namespace Bytewise

/-- A read size that a positive number gives: one that reads, or one that the system cannot take. -/
def ReadSize.Asks (size : ReadSize) : Prop := size.Reads ∨ size = .tooLarge

theorem ReadSize.asks_ofInt {n : Int} (positive : 0 < n) : (ofInt n).Asks := by
  by_cases fits : n < sizeBound
  · exact .inl (reads_ofInt positive fits)
  · exact .inr (ofInt_of_large (Int.not_lt.mp fits))

/-! ## Lines -/

/-- A line that is neither blank nor in the format of a listing. -/
def isMalformed (line : Text) : Bool := !line.isBlank && (CheckLine.parse line).toOption.isNone

def claims (lines : List Text) : List CheckLine :=
  lines.filterMap fun line => (CheckLine.parse line).toOption

theorem claims_append (lines more : List Text) :
    claims (lines ++ more) = claims lines ++ claims more :=
  List.filterMap_append

/-- Every line that is not blank either makes a claim or is malformed. -/
theorem length_claims_add_malformed (lines : List Text) :
    (claims lines).length + lines.countP isMalformed = lines.countP (!·.isBlank) := by
  induction lines with
  | nil => rfl
  | cons line lines ih =>
      cases parsed : CheckLine.parse line with
      | ok c =>
          have visible := CheckLine.isBlank_of_parse parsed
          simp [claims, isMalformed, parsed, visible, Except.toOption] at ih ⊢
          omega
      | error fault =>
          simp [claims, isMalformed, parsed, Except.toOption, List.countP_cons] at ih ⊢
          omega

/-- The line of an entry whose file could be read tells whether the checksums agree. -/
theorem CheckEntry.line_of_found {e : CheckEntry} {actual : Nat} (read : e.found = .ok actual) :
    e.line = e.name ++ Text.ofString (if e.ok then ": OK" else ": FAILED") := by
  rw [line, read]

namespace CheckLine

variable {t : FileTree} {size : ReadSize} {base : Option Path} {c : CheckLine} {data : Bytes}

/-- The path that a claim is about: below the base directory, unless it is absolute. -/
def target (base : Option Path) (c : CheckLine) : Path :=
  match base with
  | some dir => dir.append (Path.ofText c.name)
  | none => Path.ofText c.name

/-- The checksum of the whole content of the file that a claim is about, or the reason why there is
none. -/
def found (t : FileTree) (a : Algorithm) (base : Option Path) (c : CheckLine) : Except Text Nat :=
  match t.openRaw (c.target base).toText with
  | .ok data => .ok (a.checksum data)
  | .error fault => .error fault.message

def entry (t : FileTree) (a : Algorithm) (base : Option Path) (c : CheckLine) : CheckEntry :=
  ⟨c.name, c.expected, c.found t a base⟩

/-- A claim that verification does not survive. -/
def Stops (t : FileTree) (size : ReadSize) (base : Option Path) (c : CheckLine) : Prop :=
  .char '\x00' ∈ (c.target base).toText ∨
    size = .tooLarge ∧ ∃ data, t.openRaw (c.target base).toText = .ok data

/-- A file that can be opened stops no verification whose reads get something. -/
theorem not_stops_of_opened (reads : size.Reads)
    (opened : t.openRaw (c.target base).toText = .ok data) : ¬ c.Stops t size base := by
  rintro (nul | ⟨rfl, -⟩)
  · rw [FileTree.openRaw_of_nul nul] at opened
    cases opened
  · exact reads

end CheckLine

namespace Verification

variable {t : FileTree} {a : Algorithm} {size : ReadSize} {base : Option Path} {line : Text}
  {c : CheckLine} {number : Nat} {v : Verification}

theorem checkLine_blank (blank : line.isBlank = true) :
    checkLine t (.ok a) size base number line v = v := by
  rw [checkLine, if_pos blank]

theorem checkLine_malformed {fault : Fault} (visible : line.isBlank = false)
    (refused : CheckLine.parse line = .error fault) :
    checkLine t (.ok a) size base number line v =
      { v with malformed := (number, fault.message) :: v.malformed } := by
  rw [checkLine, if_neg (by simp [visible]), refused]

/-- A claim is dealt with by the digest of its file. -/
theorem checkLine_claim (parsed : CheckLine.parse line = .ok c) :
    checkLine t (.ok a) size base number line v =
      match Digest.ofFile t (.ok a) (c.target base).toText size with
      | .ok digest => { v with entries := ⟨c.name, c.expected, .ok digest.value⟩ :: v.entries }
      | .error (.unreadable _ reason) =>
        { v with entries := ⟨c.name, c.expected, .error reason⟩ :: v.entries }
      | .error fault => { v with stopped := some fault } := by
  rw [checkLine, if_neg (by simp [CheckLine.isBlank_of_parse parsed]), parsed]
  cases base <;> rfl

theorem checkLine_going (asks : size.Asks) (parsed : CheckLine.parse line = .ok c)
    (going : ¬ c.Stops t size base) :
    checkLine t (.ok a) size base number line v =
      { v with entries := c.entry t a base :: v.entries } := by
  obtain ⟨noNul, fits⟩ := not_or.mp going
  rw [checkLine_claim parsed]
  cases opened : t.openRaw (c.target base).toText with
  | ok data =>
      have reads : size.Reads := asks.resolve_right fun large => fits ⟨large, data, opened⟩
      simp [Digest.ofFile_of_opened a reads opened, CheckLine.entry, CheckLine.found, opened]
  | error fault =>
      obtain ⟨cause, rfl⟩ := FileTree.openRaw_error noNul opened
      simp [Digest.ofFile_of_refused a size opened, CheckLine.entry, CheckLine.found, opened,
        Fault.message]

theorem checkLine_stops (parsed : CheckLine.parse line = .ok c) (stops : c.Stops t size base)
    (number : Nat) (v : Verification) :
    ∃ fault, (fault = .nulInName ∨ fault = .tooLarge) ∧
      checkLine t (.ok a) size base number line v = { v with stopped := some fault } := by
  obtain nul | ⟨rfl, data, opened⟩ := stops
  · refine ⟨.nulInName, .inl rfl, ?_⟩
    rw [checkLine_claim parsed, Digest.ofFile_of_nul t a size nul]
  · refine ⟨.tooLarge, .inr rfl, ?_⟩
    rw [checkLine_claim parsed, Digest.ofFile_of_refusal a opened rfl]

/-! ## Runs -/

/-- Lines have been dealt with: each claim has its entry, each malformed line is counted, and the
verification goes on. What is found is kept in reverse. -/
structure Deals (t : FileTree) (a : Algorithm) (base : Option Path) (lines : List Text)
    (v w : Verification) : Prop where
  going : w.stopped = none
  entries : w.entries = ((claims lines).map (·.entry t a base)).reverse ++ v.entries
  malformed : w.malformed.length = lines.countP isMalformed + v.malformed.length

theorem Deals.trans {lines more : List Text} {v w x : Verification}
    (first : Deals t a base lines v w) (second : Deals t a base more w x) :
    Deals t a base (lines ++ more) v x where
  going := second.going
  entries := by
    rw [second.entries, first.entries, claims_append]
    simp
  malformed := by
    rw [second.malformed, first.malformed, List.countP_append]
    omega

theorem deals_checkLine (asks : size.Asks) (going : ∀ c ∈ claims [line], ¬ c.Stops t size base)
    (fresh : v.stopped = none) (number : Nat) :
    Deals t a base [line] v (checkLine t (.ok a) size base number line v) := by
  cases parsed : CheckLine.parse line with
  | ok c =>
      have claimed : claims [line] = [c] := by simp [claims, parsed, Except.toOption]
      have counted : isMalformed line = false := by simp [isMalformed, parsed, Except.toOption]
      rw [checkLine_going asks parsed (going c (by simp [claimed]))]
      exact ⟨fresh, by simp [claimed], by simp [counted]⟩
  | error fault =>
      have claimed : claims [line] = [] := by simp [claims, parsed, Except.toOption]
      cases blank : line.isBlank with
      | true =>
          rw [checkLine_blank blank]
          exact ⟨fresh, by simp [claimed], by simp [isMalformed, blank]⟩
      | false =>
          have counted : isMalformed line = true := by
            simp [isMalformed, blank, parsed, Except.toOption]
          rw [checkLine_malformed blank parsed]
          exact ⟨fresh, by simp [claimed], by simp [counted, Nat.add_comm]⟩

theorem deals_checkLines (asks : size.Asks) {lines : List Text}
    (going : ∀ c ∈ claims lines, ¬ c.Stops t size base) (fresh : v.stopped = none) (number : Nat) :
    Deals t a base lines v (checkLines t (.ok a) size base number lines v) := by
  induction lines generalizing number v with
  | nil => exact ⟨fresh, by simp [checkLines, claims], by simp [checkLines]⟩
  | cons line lines ih =>
      rw [← List.singleton_append, claims_append] at going
      have first := deals_checkLine (a := a) asks
        (fun c claimed => going c (List.mem_append_left _ claimed)) fresh number
      rw [checkLines]
      simp only [first.going, Option.isSome_none, Bool.false_eq_true, ↓reduceIte]
      have later : ∀ c ∈ claims lines, ¬ c.Stops t size base := fun c claimed =>
        going c (List.mem_append_right _ claimed)
      exact first.trans (ih later first.going _)

/-- Verification goes on after lines that did not stop it. -/
theorem checkLines_append {lines : List Text} (more : List Text)
    (going : (checkLines t (.ok a) size base number lines v).stopped = none) :
    checkLines t (.ok a) size base number (lines ++ more) v =
      checkLines t (.ok a) size base (number + lines.length) more
        (checkLines t (.ok a) size base number lines v) := by
  induction lines generalizing number v with
  | nil => simp [checkLines]
  | cons line lines ih =>
      rw [checkLines] at going
      rw [List.cons_append, checkLines, checkLines]
      split at going
      next stopped => simp [going] at stopped
      next onward =>
        rw [if_neg onward, if_neg onward, ih going, List.length_cons]
        congr 1
        omega

theorem checkLines_stops (parsed : CheckLine.parse line = .ok c) (stops : c.Stops t size base)
    (rest : List Text) (number : Nat) (v : Verification) :
    ∃ fault, (fault = .nulInName ∨ fault = .tooLarge) ∧
      checkLines t (.ok a) size base number (line :: rest) v =
        { v with stopped := some fault } := by
  obtain ⟨fault, which, stopped⟩ := checkLine_stops (a := a) parsed stops number v
  refine ⟨fault, which, ?_⟩
  rw [checkLines]
  simp [stopped]

/-- What has been found stays found, whatever the lines that follow. -/
theorem entries_checkLine (number : Nat) (line : Text) (v : Verification) :
    v.entries <:+ (checkLine t (.ok a) size base number line v).entries := by
  cases parsed : CheckLine.parse line with
  | error fault =>
      have kept : (checkLine t (.ok a) size base number line v).entries = v.entries := by
        cases blank : line.isBlank with
        | true => rw [checkLine_blank blank]
        | false => rw [checkLine_malformed blank parsed]
      exact kept ▸ List.suffix_refl _
  | ok c =>
      rw [checkLine_claim parsed]
      split
      · exact List.suffix_cons _ _
      · exact List.suffix_cons _ _
      · exact List.suffix_refl _

theorem entries_checkLines (number : Nat) (lines : List Text) (v : Verification) :
    v.entries <:+ (checkLines t (.ok a) size base number lines v).entries := by
  induction lines generalizing number v with
  | nil => exact List.suffix_refl _
  | cons line lines ih =>
      have first : v.entries <:+ (checkLine t (.ok a) size base number line v).entries :=
        entries_checkLine number line v
      rw [checkLines]
      split
      · exact first
      · exact first.trans (ih _ _)

end Verification

/-! ## Listings -/

section Listings

variable {t : FileTree} {a : Algorithm} {size : ReadSize} {base : Option Path} {line : Text}
  {lines : List Text} {c : CheckLine}

/-- A listing of which no line stops the verification is dealt with to its end. -/
theorem verify_going (asks : size.Asks) (going : ∀ c ∈ claims lines, ¬ c.Stops t size base) :
    (verify t (.ok a) size base lines).stopped = none ∧
      (verify t (.ok a) size base lines).entries = (claims lines).map (·.entry t a base) ∧
      (verify t (.ok a) size base lines).malformed.length = lines.countP isMalformed := by
  have deals := Verification.deals_checkLines (a := a) asks going (v := {}) rfl 1
  refine ⟨deals.going, ?_, ?_⟩
  · simp [verify, deals.entries]
  · simp [verify, deals.malformed]

/-- A listing is dealt with up to the first line that stops the verification, and no further. -/
theorem verify_stops (asks : size.Asks) (going : ∀ c ∈ claims lines, ¬ c.Stops t size base)
    (parsed : CheckLine.parse line = .ok c) (stops : c.Stops t size base) (rest : List Text) :
    ∃ fault, (fault = .nulInName ∨ fault = .tooLarge) ∧
      verify t (.ok a) size base (lines ++ line :: rest) =
        { verify t (.ok a) size base lines with stopped := some fault } := by
  have deals := Verification.deals_checkLines (a := a) asks going (v := {}) rfl 1
  obtain ⟨fault, which, stopped⟩ := Verification.checkLines_stops (a := a) parsed stops rest
    (1 + lines.length) (Verification.checkLines t (.ok a) size base 1 lines {})
  refine ⟨fault, which, ?_⟩
  rw [verify, Verification.checkLines_append _ deals.going, stopped]
  rfl

/-- The entry of a claim that does not stop the verification stands behind the entries of the lines
before it, whatever becomes of the lines after it. -/
theorem exists_verify_entries_eq (asks : size.Asks)
    (returns : (verify t (.ok a) size base lines).stopped = none)
    (parsed : CheckLine.parse line = .ok c) (going : ¬ c.Stops t size base) (after : List Text) :
    ∃ rest, (verify t (.ok a) size base (lines ++ line :: after)).entries =
      (verify t (.ok a) size base lines).entries ++ c.entry t a base :: rest := by
  let v := Verification.checkLines t (.ok a) size base 1 lines {}
  have onward : v.stopped = none := returns
  let w : Verification := { v with entries := c.entry t a base :: v.entries }
  have now : Verification.checkLine t (.ok a) size base (1 + lines.length) line v = w :=
    Verification.checkLine_going asks parsed going
  have split : Verification.checkLines t (.ok a) size base 1 (lines ++ line :: after) {} =
      Verification.checkLines t (.ok a) size base (1 + lines.length + 1) after w := by
    rw [Verification.checkLines_append _ returns, Verification.checkLines]
    simp only [v, w] at now onward ⊢
    simp [now, onward]
  have kept : w.entries <:+
      (Verification.checkLines t (.ok a) size base (1 + lines.length + 1) after w).entries :=
    Verification.entries_checkLines _ after w
  obtain ⟨more, found⟩ := kept
  refine ⟨more.reverse, ?_⟩
  simp only [verify, split, ← found]
  simp [v, w]

theorem mem_claims : c ∈ claims lines ↔ ∃ line ∈ lines, CheckLine.parse line = .ok c := by
  rw [claims, List.mem_filterMap]
  refine exists_congr fun line => and_congr_right fun _ => ?_
  cases CheckLine.parse line with
  | ok d => simp [Except.toOption]
  | error fault => simp [Except.toOption]

/-- If a line stops the verification, one of them is the first. -/
theorem exists_first_stop (stops : ∃ c ∈ claims lines, c.Stops t size base) :
    ∃ before line after c, lines = before ++ line :: after ∧ CheckLine.parse line = .ok c ∧
      c.Stops t size base ∧ ∀ d ∈ claims before, ¬ d.Stops t size base := by
  have somewhere : ∃ line ∈ lines, ∃ c, CheckLine.parse line = .ok c ∧ c.Stops t size base := by
    obtain ⟨c, claimed, stops⟩ := stops
    obtain ⟨line, member, parsed⟩ := mem_claims.mp claimed
    exact ⟨line, member, c, parsed, stops⟩
  obtain ⟨before, line, after, rfl, none, c, parsed, stops⟩ := exists_first somewhere
  refine ⟨before, line, after, c, rfl, parsed, stops, fun d claimed dStops => ?_⟩
  obtain ⟨line', member, parsed'⟩ := mem_claims.mp claimed
  exact none line' member ⟨d, parsed', dStops⟩

/-- A verification comes to its end if and only if no line stops it. -/
theorem stopped_eq_none_iff (a : Algorithm) (asks : size.Asks) :
    (verify t (.ok a) size base lines).stopped = none ↔
      ∀ c ∈ claims lines, ¬ c.Stops t size base := by
  constructor
  · intro returns c claimed stops
    obtain ⟨before, line, after, d, rfl, parsed, dStops, going⟩ :=
      exists_first_stop ⟨c, claimed, stops⟩
    obtain ⟨fault, _, verified⟩ := verify_stops (a := a) asks going parsed dStops after
    rw [verified] at returns
    cases returns
  · intro going
    exact (verify_going asks going).1

/-- A verification that comes to its end accounts for every line that is not blank. -/
theorem verify_accounts (asks : size.Asks)
    (returns : (verify t (.ok a) size base lines).stopped = none) :
    (verify t (.ok a) size base lines).entries = (claims lines).map (·.entry t a base) ∧
      (verify t (.ok a) size base lines).malformed.length = lines.countP isMalformed ∧
      (verify t (.ok a) size base lines).entries.length +
        (verify t (.ok a) size base lines).malformed.length = lines.countP (!·.isBlank) := by
  have going := (stopped_eq_none_iff a asks).mp returns
  obtain ⟨-, entries, malformed⟩ := verify_going (a := a) asks going
  refine ⟨entries, malformed, ?_⟩
  rw [entries, malformed, List.length_map, length_claims_add_malformed]

/-- Below no base directory and with a read size that the system can take, a claim stops the
verification if and only if its name holds the character that ends names. -/
theorem CheckLine.stops_iff {n : Int} (positive : 0 < n) (fits : n < sizeBound) (c : CheckLine) :
    c.Stops t (.ofInt n) none ↔ .char '\x00' ∈ c.name := by
  have taken : ReadSize.ofInt n ≠ .tooLarge := fun large =>
    ReadSize.ofInt_eq_tooLarge_iff.mp large ⟨by simp only [sizeBound]; omega, fits⟩
  have same : .char '\x00' ∈ (Path.ofText c.name).toText ↔ .char '\x00' ∈ c.name :=
    Path.mem_toText_ofText (by decide) (by decide)
  simp [Stops, target, taken, same]

/-- Every line is dealt with, and the verification comes to its end, if and only if no line stops
it. The lines that do are those whose name the system cannot take, and, with a read size that the
system cannot take, those whose file can be opened. The first of them is the end: what stands before
it has been dealt with, and nothing behind it is looked at. -/
theorem verify_survives_iff (t : FileTree) (a : Algorithm) {n : Int} (positive : 0 < n)
    (base : Option Path) (lines : List Text) :
    let v := verify t (.ok a) (.ofInt n) base lines
    (v.stopped = none ↔ ∀ c ∈ claims lines, ¬ c.Stops t (.ofInt n) base) ∧
    (base = none → n < sizeBound →
      (v.stopped = none ↔ ∀ c ∈ claims lines, .char '\x00' ∉ c.name)) ∧
    (v.stopped = none →
      v.entries = (claims lines).map (·.entry t a base) ∧
      v.malformed.length = lines.countP isMalformed ∧
      v.entries.length + v.malformed.length = lines.countP (!·.isBlank)) ∧
    (∀ fault, v.stopped = some fault →
      (fault = .nulInName ∨ fault = .tooLarge) ∧
      ∃ before line after c, lines = before ++ line :: after ∧ CheckLine.parse line = .ok c ∧
        c.Stops t (.ofInt n) base ∧ (∀ d ∈ claims before, ¬ d.Stops t (.ofInt n) base) ∧
        v.entries = (claims before).map (·.entry t a base) ∧
        v.malformed.length = before.countP isMalformed) := by
  intro v
  have asks := ReadSize.asks_ofInt positive
  have survives : v.stopped = none ↔ ∀ c ∈ claims lines, ¬ c.Stops t (.ofInt n) base :=
    stopped_eq_none_iff a asks
  refine ⟨survives, ?_, ?_, ?_⟩
  · rintro rfl fits
    simpa only [CheckLine.stops_iff positive fits] using survives
  · intro returns
    exact verify_accounts asks returns
  · intro fault stopped
    have stops : ¬ ∀ c ∈ claims lines, ¬ c.Stops t (.ofInt n) base := by
      intro going
      rw [survives.mpr going] at stopped
      cases stopped
    simp only [Classical.not_forall, Classical.not_not, exists_prop] at stops
    obtain ⟨before, line, after, c, rfl, parsed, cStops, going⟩ := exists_first_stop stops
    obtain ⟨fault', which, verified⟩ := verify_stops (a := a) asks going parsed cStops after
    obtain ⟨-, entries, malformed⟩ := verify_going (a := a) asks going
    have same : v = { verify t (.ok a) (.ofInt n) base before with stopped := some fault' } :=
      verified
    rw [same] at stopped ⊢
    obtain rfl : fault' = fault := by simpa using stopped
    exact ⟨which, before, line, after, c, rfl, parsed, cStops, going, entries, malformed⟩

end Listings

/-- A blank line, a line that is not in the format, a claim about a file that is not there and a
claim about a directory: none of them keeps the claim behind them from being looked at. -/
theorem verify_survives_badLines :
    let t : FileTree := [("a", .file {} [0x78]), ("d", .directory {} [])]
    let lines : List Text := ["", "junk", "00000000  missing", "00000000  d", "8cdc1683  a"]
    0 < (8192 : Int) ∧ (verify t (.ok .crc32) (.ofInt 8192) none lines).stopped = none ∧
      (verify t (.ok .crc32) (.ofInt 8192) none lines).entries.length = 3 := by
  intro t lines
  have positive : (0 : Int) < 8192 := by decide
  obtain ⟨-, survives, accounts, -⟩ := verify_survives_iff t .crc32 positive none lines
  have returns := (survives rfl (by decide)).mpr (by decide)
  refine ⟨positive, returns, ?_⟩
  rw [(accounts returns).1, List.length_map]
  decide

/-- A line with the character that ends names, as bytes can hold it, ends the verification: the
claim behind it is never looked at. -/
theorem verify_stopped_by_name :
    let t : FileTree := [("a", .file {} [0x78])]
    let lines := Text.lines (Utf8.decode (Text.encode "00000000  a\x00b\n8cdc1683  a\n"))
    lines.countP (!·.isBlank) = 2 ∧
      (verify t (.ok .crc32) (.ofInt 8192) none lines).stopped = some .nulInName ∧
      (verify t (.ok .crc32) (.ofInt 8192) none lines).entries.length = 0 := by
  cbv

end Bytewise

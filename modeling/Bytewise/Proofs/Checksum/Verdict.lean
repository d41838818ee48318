import Bytewise.Proofs.Checksum.Verification

/-!
# When a listing passes

A verification passes if it found no malformed line, found at least one claim, and every claim
holds: its file can be read and has the checksum. Said of the lines, this is one condition on each
line that is not blank, besides that there is one (`passes_verify_iff`). Since each line is dealt
with by itself, two listings one after the other are dealt with as each of them alone
(`verify_append`).
-/

namespace Bytewise

/-- No malformed line, at least one claim, and no claim that fails. -/
def Verification.passes (v : Verification) : Bool :=
  v.malformed.isEmpty && !v.entries.isEmpty && v.entries.all (·.ok)

/-- The file that a claim is about can be read, and its whole content has the checksum. -/
def CheckLine.Holds (t : FileTree) (a : Algorithm) (base : Option Path) (c : CheckLine) : Prop :=
  ∃ data, t.openRaw (c.target base).toText = .ok data ∧ a.checksum data = c.expected

variable {t : FileTree} {a : Algorithm} {size : ReadSize} {base : Option Path} {line : Text}
  {lines more : List Text} {c : CheckLine}

theorem CheckLine.ok_entry_iff : (c.entry t a base).ok = true ↔ c.Holds t a base := by
  rw [entry, CheckEntry.ok, found, Holds]
  cases t.openRaw (c.target base).toText with
  | ok data => simp
  | error fault => simp

/-- The claims of lines that are all in the format. -/
theorem claims_map {α : Type} {g : α → Text} {h : α → CheckLine} {xs : List α}
    (parsed : ∀ x ∈ xs, CheckLine.parse (g x) = .ok (h x)) : claims (xs.map g) = xs.map h := by
  induction xs with
  | nil => rfl
  | cons x xs ih =>
      obtain ⟨first, others⟩ := List.forall_mem_cons.mp parsed
      have now : claims [g x] = [h x] := by simp [claims, first, Except.toOption]
      rw [List.map_cons, ← List.singleton_append, claims_append, now, ih others, List.map_cons,
        List.singleton_append]

/-- What each line that is not blank is asked to claim is true of every claim. -/
theorem forall_mem_claims {good : CheckLine → Prop}
    (all : ∀ line ∈ lines, line.isBlank = false → ∃ c, CheckLine.parse line = .ok c ∧ good c) :
    ∀ c ∈ claims lines, good c := by
  intro c claimed
  obtain ⟨line, member, parsed⟩ := mem_claims.mp claimed
  obtain ⟨d, parsed', holds⟩ := all line member (CheckLine.isBlank_of_parse parsed)
  rw [parsed] at parsed'
  cases parsed'
  exact holds

theorem isMalformed_eq_false_iff :
    isMalformed line = false ↔ (line.isBlank = false → ∃ c, CheckLine.parse line = .ok c) := by
  rw [isMalformed]
  cases CheckLine.parse line with
  | ok c => simp [Except.toOption]
  | error fault => simp [Except.toOption]

/-- No line is malformed if and only if each line that is not blank makes a claim. -/
theorem countP_isMalformed_eq_zero_iff : lines.countP isMalformed = 0 ↔
    ∀ line ∈ lines, line.isBlank = false → ∃ c, CheckLine.parse line = .ok c := by
  simp only [List.countP_eq_zero, Bool.not_eq_true, isMalformed_eq_false_iff]

/-- Where no line is malformed, there is a claim if and only if some line is not blank. -/
theorem claims_ne_nil_iff (formed : lines.countP isMalformed = 0) :
    claims lines ≠ [] ↔ ∃ line ∈ lines, line.isBlank = false := by
  have total := length_claims_add_malformed lines
  rw [formed, Nat.add_zero] at total
  rw [← List.length_pos_iff, total, List.countP_pos_iff]
  simp

/-- A verification that comes to its end passes if and only if there is a line that is not blank,
and each such line makes a claim that holds. -/
theorem passes_verify_iff (asks : size.Asks) (going : ∀ c ∈ claims lines, ¬ c.Stops t size base) :
    (verify t (.ok a) size base lines).passes = true ↔
      (∃ line ∈ lines, line.isBlank = false) ∧
      ∀ line ∈ lines, line.isBlank = false →
        ∃ c, CheckLine.parse line = .ok c ∧ c.Holds t a base := by
  obtain ⟨-, entries, malformed⟩ := verify_going (a := a) asks going
  have formed : (verify t (.ok a) size base lines).malformed.isEmpty = true ↔
      lines.countP isMalformed = 0 := by
    rw [List.isEmpty_iff_length_eq_zero, malformed]
  have claimed : (!(verify t (.ok a) size base lines).entries.isEmpty) = true ↔
      claims lines ≠ [] := by
    rw [entries]
    simp
  have held : (verify t (.ok a) size base lines).entries.all (·.ok) = true ↔
      ∀ c ∈ claims lines, c.Holds t a base := by
    rw [entries]
    simp [CheckLine.ok_entry_iff]
  rw [Verification.passes, Bool.and_eq_true, Bool.and_eq_true, formed, claimed, held]
  constructor
  · rintro ⟨⟨noMalformed, some⟩, all⟩
    refine ⟨(claims_ne_nil_iff noMalformed).mp some, ?_⟩
    intro line member visible
    obtain ⟨c, parsed⟩ := countP_isMalformed_eq_zero_iff.mp noMalformed line member visible
    exact ⟨c, parsed, all c (mem_claims.mpr ⟨line, member, parsed⟩)⟩
  · rintro ⟨some, all⟩
    have noMalformed : lines.countP isMalformed = 0 := by
      rw [countP_isMalformed_eq_zero_iff]
      intro line member visible
      obtain ⟨c, parsed, -⟩ := all line member visible
      exact ⟨c, parsed⟩
    exact ⟨⟨noMalformed, (claims_ne_nil_iff noMalformed).mpr some⟩, forall_mem_claims all⟩

/-- Two listings one after the other are dealt with as each of them alone. -/
theorem verify_append (asks : size.Asks)
    (returns : (verify t (.ok a) size base lines).stopped = none)
    (returns' : (verify t (.ok a) size base more).stopped = none) :
    (verify t (.ok a) size base (lines ++ more)).stopped = none ∧
    (verify t (.ok a) size base (lines ++ more)).entries =
      (verify t (.ok a) size base lines).entries ++ (verify t (.ok a) size base more).entries ∧
    (verify t (.ok a) size base (lines ++ more)).malformed.length =
      (verify t (.ok a) size base lines).malformed.length +
        (verify t (.ok a) size base more).malformed.length := by
  have both : ∀ c ∈ claims (lines ++ more), ¬ c.Stops t size base := by
    rw [claims_append, List.forall_mem_append, ← stopped_eq_none_iff a asks,
      ← stopped_eq_none_iff a asks]
    exact ⟨returns, returns'⟩
  obtain ⟨entries, malformed, -⟩ := verify_accounts asks returns
  obtain ⟨entries', malformed', -⟩ := verify_accounts asks returns'
  obtain ⟨stopped, entriesBoth, malformedBoth⟩ := verify_going (a := a) asks both
  refine ⟨stopped, ?_, ?_⟩
  · rw [entriesBoth, entries, entries', claims_append, List.map_append]
  · rw [malformedBoth, malformed, malformed', List.countP_append]

end Bytewise

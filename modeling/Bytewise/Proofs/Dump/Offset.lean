import Bytewise.Dump.Offset
import Bytewise.Proofs.Numeral

/-!
# Texts read as offsets

What may stand in front of the digits of an offset is a run of blanks and a sign (`IsLead`). Every
text is such a lead and the rest behind it (`exists_lead`), and a lead in front of digits is passed
over as a whole (`unsigned_lead_append`).

Every text reads as some number, except one in which a decimal numeral of more digits than are
converted at a time stands behind the lead (`parse_fails_iff`). Numerals in the other bases may be
of any length.
-/

namespace Bytewise.Offset

open Numeral

variable {cs lead : List Char}

/-! ## Blanks and a sign -/

def IsSign (cs : List Char) : Prop := cs = [] ∨ cs = ['+'] ∨ cs = ['-']

/-- Blanks and a sign, both of which may be missing. -/
def IsLead (cs : List Char) : Prop :=
  ∃ blanks sign, cs = blanks ++ sign ∧ (∀ c ∈ blanks, isBlankChar c = true) ∧ IsSign sign

theorem isLead_nil : IsLead [] := ⟨[], [], rfl, List.forall_mem_nil _, .inl rfl⟩

/-- A text without the blanks and the sign in front. -/
def unsigned (cs : List Char) : List Char := (sign (dropBlanks cs)).2

/-- A sign is split off, or there is none. -/
theorem exists_sign (cs : List Char) :
    ∃ s, IsSign s ∧ cs = s ++ (sign cs).2 ∧ ((sign cs).1 = true ↔ s = ['-']) := by
  unfold sign
  split
  · exact ⟨['+'], .inr (.inl rfl), rfl, by simp⟩
  · exact ⟨['-'], .inr (.inr rfl), rfl, by simp⟩
  · exact ⟨[], .inl rfl, rfl, by simp⟩

/-- Every text is blanks, the sign that is split off, and what stands behind it. -/
theorem exists_parts (cs : List Char) :
    ∃ blanks s, cs = blanks ++ s ++ unsigned cs ∧ (∀ c ∈ blanks, isBlankChar c = true) ∧
      IsSign s ∧ ((sign (dropBlanks cs)).1 = true ↔ s = ['-']) := by
  obtain ⟨s, isSign, signed, minus⟩ := exists_sign (dropBlanks cs)
  refine ⟨cs.takeWhile isBlankChar, s, ?_, fun c => List.mem_takeWhile_imp, isSign, minus⟩
  rw [List.append_assoc, unsigned, ← signed]
  exact List.takeWhile_append_dropWhile.symm

/-- Every text is a lead and what stands behind it. -/
theorem exists_lead (cs : List Char) : ∃ lead, IsLead lead ∧ cs = lead ++ unsigned cs := by
  obtain ⟨blanks, s, parts, blank, isSign, -⟩ := exists_parts cs
  exact ⟨blanks ++ s, ⟨blanks, s, rfl, blank, isSign⟩, parts⟩

theorem sign_append {s : List Char} (isSign : IsSign s)
    (behind : cs.head? ≠ some '+' ∧ cs.head? ≠ some '-') :
    sign (s ++ cs) = (decide (s = ['-']), cs) := by
  obtain rfl | rfl | rfl := isSign
  · rw [List.nil_append, sign.eq_def]
    split
    · exact absurd rfl behind.1
    · exact absurd rfl behind.2
    · rfl
  · rfl
  · rfl

theorem isBlankChar_of_isSign {s : List Char} (isSign : IsSign s) :
    ∀ c ∈ s, isBlankChar c = false := by
  intro c member
  obtain rfl | rfl | rfl := isSign
  · cases member
  · rw [List.mem_singleton.mp member]
    rfl
  · rw [List.mem_singleton.mp member]
    rfl

/-- Blanks and a sign are taken apart in front of something that belongs to neither. -/
theorem sign_dropBlanks_append {blanks s : List Char} {c : Char}
    (blank : ∀ c ∈ blanks, isBlankChar c = true) (isSign : IsSign s)
    (stop : isBlankChar c = false ∧ c ≠ '+' ∧ c ≠ '-') (cs : List Char) :
    sign (dropBlanks (blanks ++ s ++ c :: cs)) = (decide (s = ['-']), c :: cs) := by
  have dropped : dropBlanks (blanks ++ s ++ c :: cs) = s ++ c :: cs := by
    rw [dropBlanks, List.append_assoc, List.dropWhile_append_of_pos blank]
    cases s with
    | nil => exact List.dropWhile_cons_of_neg (by simp [stop.1])
    | cons d s =>
        have kept := isBlankChar_of_isSign isSign d List.mem_cons_self
        exact List.dropWhile_cons_of_neg (by simp [kept])
  rw [dropped]
  exact sign_append isSign ⟨by simp [stop.2.1], by simp [stop.2.2]⟩

/-- A lead is passed over in front of something that belongs neither to the blanks nor to the sign.
-/
theorem unsigned_lead_append {c : Char} (isLead : IsLead lead)
    (stop : isBlankChar c = false ∧ c ≠ '+' ∧ c ≠ '-') (cs : List Char) :
    unsigned (lead ++ c :: cs) = c :: cs := by
  obtain ⟨blanks, s, rfl, blank, isSign⟩ := isLead
  rw [unsigned, sign_dropBlanks_append blank isSign stop]

/-- A digit belongs neither to the blanks nor to the sign. -/
theorem stop_of_isDigit {base : Nat} {c : Char} (digit : isDigit base c = true) :
    isBlankChar c = false ∧ c ≠ '+' ∧ c ≠ '-' := by
  have ranges := toNat_of_isDigit digit
  have code : ∀ d : Char, d = '+' ∨ d = '-' → d.toNat = 43 ∨ d.toNat = 45 := by
    rintro d (rfl | rfl)
    · exact .inl rfl
    · exact .inr rfl
  refine ⟨?_, ?_, ?_⟩
  · simp only [isBlankChar, Bool.or_eq_false_iff, Bool.and_eq_false_iff, decide_eq_false_iff_not,
      beq_eq_false_iff_ne]
    omega
  · intro plus
    have := code c (.inl plus)
    omega
  · intro minus
    have := code c (.inr minus)
    omega

/-! ## Numerals that are too long -/

/-- A number that does not begin with a zero is decimal. -/
theorem magnitude_of_head_ne (decimal : cs.head? ≠ some '0') :
    magnitude cs = (10, cs.takeWhile (isDigit 10)) := by
  rw [magnitude.eq_def]
  split
  · exact absurd rfl decimal
  · rw [if_neg decimal]

theorem magnitude_of_head_eq (zero : cs.head? = some '0') :
    (magnitude cs).1 ≠ 10 := by
  rw [magnitude.eq_def]
  split
  · split <;> simp
  · simp [zero]

/-- Behind blanks and a sign stands a decimal numeral of more digits than are converted. -/
def TooLong (cs : List Char) : Prop :=
  ∃ lead digits rest, cs = lead ++ digits ++ rest ∧ IsLead lead ∧
    (∀ c ∈ digits, isDigit 10 c = true) ∧ digits.head? ≠ some '0' ∧ digitLimit < digits.length

/-- The numeral is too long exactly if the digits behind the lead are decimal and too many. -/
theorem tooLong_iff :
    TooLong cs ↔ (magnitude (unsigned cs)).1 = 10 ∧
      digitLimit < (magnitude (unsigned cs)).2.length := by
  constructor
  · rintro ⟨lead, digits, rest, rfl, isLead, digit, decimal, long⟩
    cases digits with
    | nil => cases long
    | cons c digits =>
        have stop := stop_of_isDigit (digit c List.mem_cons_self)
        have begins : (c :: digits ++ rest).head? ≠ some '0' := decimal
        rw [List.append_assoc, List.cons_append, unsigned_lead_append isLead stop,
          ← List.cons_append, magnitude_of_head_ne begins, List.takeWhile_append_of_pos digit]
        refine ⟨rfl, Nat.lt_of_lt_of_le long ?_⟩
        rw [List.length_append]
        exact Nat.le_add_right _ _
  · rintro ⟨base, long⟩
    obtain ⟨lead, isLead, parts⟩ := exists_lead cs
    have decimal : (unsigned cs).head? ≠ some '0' := fun zero => magnitude_of_head_eq zero base
    rw [magnitude_of_head_ne decimal] at long
    refine ⟨lead, (unsigned cs).takeWhile (isDigit 10), (unsigned cs).dropWhile (isDigit 10),
      ?_, isLead, fun c member => List.mem_takeWhile_imp member, ?_, long⟩
    · rw [List.append_assoc, List.takeWhile_append_dropWhile]
      exact parts
    · intro zero
      obtain ⟨digits, first⟩ := List.head?_eq_some_iff.mp zero
      apply decimal
      rw [← List.takeWhile_append_dropWhile (p := isDigit 10) (l := unsigned cs), first]
      rfl

/-- Reading an offset fails exactly for those numerals, and in one way. -/
theorem parse_fails_iff :
    (∃ fault, parse cs = .error fault) ↔ TooLong cs := by
  rw [tooLong_iff, unsigned, parse]
  simp only [Bool.and_eq_true, decide_eq_true_eq]
  split
  next long => exact iff_of_true ⟨_, rfl⟩ long
  next short => exact iff_of_false (by simp) short

end Bytewise.Offset

import Bytewise.Proofs.Dump.Offset

/-!
# The number that a text begins with

An offset is written as blanks, a sign and a numeral: hexadecimal digits behind a mark, octal digits
behind a zero, or decimal digits of which the first is not zero (`Written`, `Denotes`). What is read
from a text is the longest beginning of it that is written so, and zero if there is none
(`parse_longest`).

A reader that tries the forms one after the other finds the longest beginning because the forms
compete for one zero only. A mark with a digit behind it makes the zero hexadecimal, and then the
zero alone is the longest octal numeral; without the digit the mark belongs to no numeral. Blanks
and sign do not compete at all, since no numeral begins with one of them.
-/

namespace Bytewise.Offset

open Numeral

variable {cs front rest digits ds : List Char} {m n : Nat} {z : Int}

/-! ## Numerals -/

inductive Written : Nat → List Char → Prop where
  | hexadecimal {mark : Char} {ds : List Char} (marked : mark = 'x' ∨ mark = 'X')
      (inhabited : ds ≠ []) (digit : ∀ d ∈ ds, isDigit 16 d = true) :
      Written (value 16 ds) ('0' :: mark :: ds)
  | octal {ds : List Char} (digit : ∀ d ∈ ds, isDigit 8 d = true) :
      Written (value 8 ds) ('0' :: ds)
  | decimal {d : Char} {ds : List Char} (nonzero : d ≠ '0')
      (digit : ∀ c ∈ d :: ds, isDigit 10 c = true) : Written (value 10 (d :: ds)) (d :: ds)

/-- The text behind a numeral begins with something that makes the numeral longer. -/
def Continues (digits rest : List Char) : Prop :=
  ∃ more n, more ≠ [] ∧ more <+: rest ∧ Written n (digits ++ more)

theorem value_zero_cons (base : Nat) (ds : List Char) : value base ('0' :: ds) = value base ds := by
  simp [value, digit?]

/-- The mark of a hexadecimal numeral is no octal digit. -/
theorem isDigit_mark {mark : Char} (marked : mark = 'x' ∨ mark = 'X') : isDigit 8 mark = false := by
  obtain rfl | rfl := marked <;> decide

theorem unmarked_of_octal {c : Char} (digit : ∀ d ∈ c :: ds, isDigit 8 d = true) :
    ¬ (c = 'x' ∨ c = 'X') := by
  intro marked
  have octal := digit c List.mem_cons_self
  rw [isDigit_mark marked] at octal
  cases octal

namespace Written

theorem exists_cons (written : Written n digits) :
    ∃ c ds, digits = c :: ds ∧ isDigit 10 c = true := by
  cases written with
  | hexadecimal => exact ⟨'0', _, rfl, by decide⟩
  | octal => exact ⟨'0', _, rfl, by decide⟩
  | decimal nonzero digit => exact ⟨_, _, rfl, digit _ List.mem_cons_self⟩

/-- A numeral is that of one number. -/
theorem unique (written : Written m digits) (written' : Written n digits) : m = n := by
  cases written with
  | hexadecimal marked inhabited digit =>
      cases written' with
      | hexadecimal => rfl
      | octal digit' => exact absurd marked (unmarked_of_octal digit')
      | decimal nonzero => exact absurd rfl nonzero
  | octal digit =>
      cases written' with
      | hexadecimal marked => exact absurd marked (unmarked_of_octal digit)
      | octal => rfl
      | decimal nonzero => exact absurd rfl nonzero
  | decimal nonzero digit =>
      cases written' with
      | hexadecimal => exact absurd rfl nonzero
      | octal => exact absurd rfl nonzero
      | decimal => rfl

/-- The usual hexadecimal numerals of a number, with letters of either case. -/
theorem of_digits_hexadecimal {mark : Char} (marked : mark = 'x' ∨ mark = 'X') (n : Nat) :
    Written n ('0' :: mark :: Numeral.digits 16 n) ∧
      Written n ('0' :: mark :: (Numeral.digits 16 n).map Char.toUpper) := by
  have lower : ∀ d ∈ Numeral.digits 16 n, isDigit 16 d = true := fun d =>
    isDigit_of_mem_digits (by decide) (by decide)
  have upper : ∀ d ∈ (Numeral.digits 16 n).map Char.toUpper, isDigit 16 d = true := by
    intro d member
    obtain ⟨c, digit, rfl⟩ := List.mem_map.mp member
    exact isDigit_toUpper (lower c digit)
  have read : value 16 (Numeral.digits 16 n) = n := value_digits (by decide) (by decide) n
  have inhabited : Numeral.digits 16 n ≠ [] := digits_ne_nil (by decide) n
  have written := hexadecimal marked inhabited lower
  have written' := hexadecimal marked (by simp) upper
  rw [value_map_toUpper lower, read] at written'
  rw [read] at written
  exact ⟨written, written'⟩

theorem of_digits_octal (n : Nat) : Written n ('0' :: Numeral.digits 8 n) := by
  have digit : ∀ d ∈ Numeral.digits 8 n, isDigit 8 d = true := fun d =>
    isDigit_of_mem_digits (by decide) (by decide)
  have written := octal digit
  rwa [value_digits (by decide) (by decide)] at written

theorem of_digits_decimal (n : Nat) : Written n (Numeral.digits 10 n) := by
  have inhabited : Numeral.digits 10 n ≠ [] := digits_ne_nil (by decide) n
  obtain ⟨d, ds, same⟩ := List.exists_cons_of_ne_nil inhabited
  have digit : ∀ c ∈ d :: ds, isDigit 10 c = true := fun c member =>
    isDigit_of_mem_digits (by decide) (by decide) (same ▸ member)
  by_cases zero : d = '0'
  case pos =>
    -- Zero in decimal is an octal numeral without a digit behind its zero.
    subst zero
    obtain ⟨rfl, rfl⟩ := (digits_eq_zero_cons_iff (by decide) (by decide)).mp same
    rw [same]
    exact octal (List.forall_mem_nil _)
  case neg =>
    have written := decimal zero digit
    rwa [← same, value_digits (by decide) (by decide)] at written

end Written

/-! ## What continues a numeral -/

/-- The first character behind a numeral that continues it. -/
theorem Continues.exists_cons (continues : Continues digits rest) :
    ∃ d more tail n, rest = d :: (more ++ tail) ∧ Written n (digits ++ d :: more) := by
  obtain ⟨more, n, inhabited, ⟨tail, rfl⟩, written⟩ := continues
  obtain ⟨d, more, rfl⟩ := List.exists_cons_of_ne_nil inhabited
  exact ⟨d, more, tail, n, List.cons_append, written⟩

theorem continues_hexadecimal_iff {mark : Char} (marked : mark = 'x' ∨ mark = 'X')
    (digit : ∀ d ∈ ds, isDigit 16 d = true) :
    Continues ('0' :: mark :: ds) rest ↔ rest.head?.any (isDigit 16) = true := by
  constructor
  · intro continues
    obtain ⟨d, more, tail, n, rfl, written⟩ := continues.exists_cons
    rw [List.cons_append, List.cons_append] at written
    cases written with
    | hexadecimal _ _ run => exact run d (by simp)
    | octal run => exact absurd marked (unmarked_of_octal run)
    | decimal nonzero => exact absurd rfl nonzero
  · intro first
    cases rest with
    | nil => cases first
    | cons d rest =>
        have more : ∀ c ∈ ds ++ [d], isDigit 16 c = true :=
          List.forall_mem_append.mpr ⟨digit, List.forall_mem_singleton.mpr first⟩
        exact ⟨[d], _, List.cons_ne_nil _ _, List.prefix_append [d] rest,
          .hexadecimal marked (by simp) more⟩

/-! ## The longest numeral -/

structure Longest {α : Type} (Means : α → List Char → Prop) (cs front : List Char) (meaning : α) :
    Prop where
  begins : front <+: cs
  means : Means meaning front
  longest : ∀ other meaning', other <+: cs → Means meaning' other → other.length ≤ front.length

theorem Longest.unique {α : Type} {Means : α → List Char → Prop} {front' : List Char} {a b : α}
    (first : Longest Means cs front a) (second : Longest Means cs front' b) : front = front' :=
  (List.prefix_of_prefix_length_le first.begins second.begins
    (second.longest _ _ first.begins first.means)).eq_of_length_le
      (first.longest _ _ second.begins second.means)

/-- A run of characters at the beginning is no longer than the longest one. -/
theorem length_le_length_takeWhile {p : Char → Bool} (run : ∀ c ∈ ds, p c = true)
    (begins : ds <+: cs) : ds.length ≤ (cs.takeWhile p).length := by
  obtain ⟨rest, rfl⟩ := begins
  rw [List.takeWhile_append_of_pos run, List.length_append]
  exact Nat.le_add_right _ _

theorem longest_decimal {d : Char} (nonzero : d ≠ '0') (digit : isDigit 10 d = true)
    (rest : List Char) :
    Longest Written (d :: rest) ((d :: rest).takeWhile (isDigit 10))
      (value 10 ((d :: rest).takeWhile (isDigit 10))) where
  begins := List.takeWhile_prefix _
  means := by
    rw [List.takeWhile_cons_of_pos digit]
    refine .decimal nonzero fun c member => List.mem_takeWhile_imp (l := d :: rest) ?_
    rwa [List.takeWhile_cons_of_pos digit]
  longest := by
    intro other n begins written
    cases written with
    | hexadecimal => exact absurd (List.cons_prefix_cons.mp begins).1.symm nonzero
    | octal => exact absurd (List.cons_prefix_cons.mp begins).1.symm nonzero
    | decimal _ run => exact length_le_length_takeWhile run begins

/-- Behind a mark and a digit the zero belongs to a hexadecimal numeral. -/
theorem longest_hexadecimal {mark d : Char} (marked : mark = 'x' ∨ mark = 'X')
    (digit : isDigit 16 d = true) (rest : List Char) :
    Longest Written ('0' :: mark :: d :: rest)
      ('0' :: mark :: (d :: rest).takeWhile (isDigit 16))
      (value 16 ((d :: rest).takeWhile (isDigit 16))) where
  begins := by simp [List.takeWhile_prefix]
  means := by
    refine .hexadecimal marked ?_ fun c member => List.mem_takeWhile_imp member
    rw [List.takeWhile_cons_of_pos digit]
    exact List.cons_ne_nil _ _
  longest := by
    intro other n begins written
    cases written with
    | hexadecimal _ _ run =>
        have inside := (List.cons_prefix_cons.mp (List.cons_prefix_cons.mp begins).2).2
        simpa using length_le_length_takeWhile run inside
    | octal run =>
        -- The mark is no octal digit, so the zero stands alone.
        have short := length_le_length_takeWhile run (List.cons_prefix_cons.mp begins).2
        rw [List.takeWhile_cons_of_neg (by simp [isDigit_mark marked])] at short
        simp only [List.length_cons, List.length_nil] at short ⊢
        omega
    | decimal nonzero => exact absurd (List.cons_prefix_cons.mp begins).1 nonzero

/-- Without a mark and a digit behind it a zero is octal. -/
theorem longest_octal
    (unmarked : ∀ mark d more, rest = mark :: d :: more → mark = 'x' ∨ mark = 'X' →
      isDigit 16 d = false) :
    Longest Written ('0' :: rest) ('0' :: rest.takeWhile (isDigit 8))
      (value 8 (rest.takeWhile (isDigit 8))) where
  begins := by simp [List.takeWhile_prefix]
  means := .octal fun c member => List.mem_takeWhile_imp member
  longest := by
    intro other n begins written
    cases written with
    | @hexadecimal mark ds marked inhabited run =>
        obtain ⟨d, ds, rfl⟩ := List.exists_cons_of_ne_nil inhabited
        obtain ⟨more, same⟩ := (List.cons_prefix_cons.mp begins).2
        have digit := run d List.mem_cons_self
        rw [unmarked mark d (ds ++ more) same.symm marked] at digit
        cases digit
    | octal run =>
        simpa using length_le_length_takeWhile run (List.cons_prefix_cons.mp begins).2
    | decimal nonzero => exact absurd (List.cons_prefix_cons.mp begins).1 nonzero

/-- A text that begins with a digit begins with the numeral of the number that is made out, and with
no longer one. -/
theorem longest_magnitude {c : Char} (digit : isDigit 10 c = true) (rest : List Char) :
    ∃ front, Longest Written (c :: rest) front
      (value (magnitude (c :: rest)).1 (magnitude (c :: rest)).2) := by
  by_cases zero : c = '0'
  case neg =>
    rw [magnitude_of_head_ne (by simpa using zero)]
    exact ⟨_, longest_decimal zero digit rest⟩
  case pos =>
    subst zero
    cases rest with
    | nil => exact ⟨['0'], longest_octal nofun⟩
    | cons x rest =>
        rw [magnitude]
        split
        next marked =>
          obtain ⟨mark, first⟩ := marked
          cases rest with
          | nil => cases first
          | cons d rest => exact ⟨_, longest_hexadecimal mark first rest⟩
        next unmarked =>
          rw [value_zero_cons]
          refine ⟨'0' :: (x :: rest).takeWhile (isDigit 8), longest_octal ?_⟩
          rintro mark d more same marked
          cases same
          simpa [marked] using unmarked

/-! ## The longest offset -/

/-- The number that a numeral with a sign in front of it stands for. -/
def signed (sign : List Char) (n : Nat) : Int := if sign = ['-'] then -n else n

/-- A text that is an offset and nothing more: blanks, a sign and a numeral. -/
inductive Denotes : Int → List Char → Prop where
  | mk {blanks sign digits : List Char} {n : Nat} (blank : ∀ c ∈ blanks, isBlankChar c = true)
      (isSign : IsSign sign) (written : Written n digits) :
      Denotes (signed sign n) (blanks ++ sign ++ digits)

/-- The number that a text stands for as an offset: that of the longest beginning that is one, and
zero if no beginning is. -/
def StandsFor (cs : List Char) (z : Int) : Prop :=
  (∃ front, Longest Denotes cs front z) ∨ z = 0 ∧ ∀ front z', front <+: cs → ¬ Denotes z' front

/-- The number that a numeral in a text stands for, with the sign that is split off there. -/
def signedIn (cs : List Char) (n : Nat) : Int :=
  if (sign (dropBlanks cs)).1 then -(n : Int) else n

/-- What is read from a text whose numeral is not too long. -/
theorem parse_of_short (short : ¬ TooLong cs) :
    parse cs = .ok (signedIn cs
      (value (magnitude (unsigned cs)).1 (magnitude (unsigned cs)).2)) := by
  rw [tooLong_iff, unsigned] at short
  rw [parse, unsigned]
  simp only [Bool.and_eq_true, decide_eq_true_eq]
  rw [if_neg short]
  rfl

/-- Blanks and a sign in front of a numeral are taken apart, whatever follows. -/
theorem Written.sign_dropBlanks {blanks s : List Char} (written : Written n digits)
    (blank : ∀ c ∈ blanks, isBlankChar c = true) (isSign : IsSign s) (rest : List Char) :
    sign (dropBlanks (blanks ++ s ++ digits ++ rest)) = (decide (s = ['-']), digits ++ rest) := by
  obtain ⟨c, ds, rfl, digit⟩ := written.exists_cons
  rw [List.append_assoc _ (c :: ds) rest, List.cons_append]
  exact sign_dropBlanks_append blank isSign (stop_of_isDigit digit) (ds ++ rest)

theorem Written.signedIn {blanks s : List Char} (written : Written n digits)
    (blank : ∀ c ∈ blanks, isBlankChar c = true) (isSign : IsSign s) (rest : List Char) :
    signedIn (blanks ++ s ++ digits ++ rest) n = signed s n := by
  rw [Offset.signedIn, written.sign_dropBlanks blank isSign, signed]
  exact if_congr decide_eq_true_iff rfl rfl

/-- An offset at the beginning of a text has its numeral where the text without blanks and sign
begins. -/
theorem Denotes.exists_written (denotes : Denotes z front) (begins : front <+: cs) :
    ∃ digits n, Written n digits ∧ digits <+: unsigned cs ∧ z = signedIn cs n ∧
      front.length + (unsigned cs).length = cs.length + digits.length := by
  obtain ⟨rest, rfl⟩ := begins
  cases denotes with
  | @mk blanks s digits n blank isSign written =>
      have behind : unsigned (blanks ++ s ++ digits ++ rest) = digits ++ rest := by
        rw [unsigned, written.sign_dropBlanks blank isSign]
      rw [behind]
      refine ⟨digits, n, written, List.prefix_append _ _,
        (written.signedIn blank isSign rest).symm, ?_⟩
      simp only [List.length_append]
      omega

/-- Blanks and sign belong to the offset of a numeral behind them. -/
theorem Written.exists_denotes (written : Written n digits) (begins : digits <+: unsigned cs) :
    ∃ front, Denotes (Offset.signedIn cs n) front ∧ front <+: cs ∧
      front.length + (unsigned cs).length = cs.length + digits.length := by
  obtain ⟨blanks, s, parts, blank, isSign, -⟩ := exists_parts cs
  obtain ⟨rest, behind⟩ := begins
  rw [← behind, ← List.append_assoc] at parts
  refine ⟨blanks ++ s ++ digits, ?_, ⟨rest, parts.symm⟩, ?_⟩
  · have signs := written.signedIn blank isSign rest
    rw [← parts] at signs
    rw [signs]
    exact .mk blank isSign written
  · rw [← behind, parts]
    simp only [List.length_append]
    omega

/-- The longest offset is that of the longest numeral. -/
theorem Longest.denotes (longest : Longest Written (unsigned cs) digits n) :
    ∃ front, Longest Denotes cs front (signedIn cs n) := by
  obtain ⟨front, denotes, begins, extent⟩ := longest.means.exists_denotes longest.begins
  refine ⟨front, begins, denotes, fun other z' begins' denotes' => ?_⟩
  obtain ⟨digits', n', written', inside, -, extent'⟩ := denotes'.exists_written begins'
  have shorter := longest.longest _ _ inside written'
  omega

theorem Denotes.unique {z' : Int} (denotes : Denotes z cs) (denotes' : Denotes z' cs) :
    z = z' := by
  obtain ⟨digits, n, written, begins, rfl, extent⟩ := denotes.exists_written List.prefix_rfl
  obtain ⟨digits', n', written', begins', rfl, extent'⟩ := denotes'.exists_written List.prefix_rfl
  have same : digits = digits' :=
    (List.prefix_of_prefix_length_le begins begins' (by omega)).eq_of_length (by omega)
  subst same
  rw [written.unique written']

/-- A text stands for one number. -/
theorem StandsFor.unique {z' : Int} (stands : StandsFor cs z) (stands' : StandsFor cs z') :
    z = z' := by
  obtain ⟨front, longest⟩ | ⟨rfl, none⟩ := stands
  · obtain ⟨front', longest'⟩ | ⟨-, none⟩ := stands'
    · obtain rfl := longest.unique longest'
      exact longest.means.unique longest'.means
    · exact absurd longest.means (none _ _ longest.begins)
  · obtain ⟨front', longest'⟩ | ⟨rfl, -⟩ := stands'
    · exact absurd longest'.means (none _ _ longest'.begins)
    · rfl

/-- A text without a digit behind blanks and sign stands for zero. -/
theorem standsFor_zero (noDigit : ∀ c, (unsigned cs).head? = some c → isDigit 10 c = false) :
    StandsFor cs 0 := by
  refine .inr ⟨rfl, fun front z' begins denotes => ?_⟩
  obtain ⟨digits, n, written, inside, -, -⟩ := denotes.exists_written begins
  obtain ⟨c, ds, rfl, digit⟩ := written.exists_cons
  obtain ⟨rest, behind⟩ := inside
  rw [noDigit c (by rw [← behind]; rfl)] at digit
  cases digit

theorem standsFor_magnitude (cs : List Char) :
    StandsFor cs (signedIn cs
      (value (magnitude (unsigned cs)).1 (magnitude (unsigned cs)).2)) := by
  have nothing (noDigit : ∀ c, (unsigned cs).head? = some c → isDigit 10 c = false) :
      magnitude (unsigned cs) = (10, []) := by
    rw [magnitude_of_head_ne]
    · cases behind : unsigned cs with
      | nil => rfl
      | cons c rest =>
          rw [List.takeWhile_cons_of_neg]
          simp [noDigit c (by rw [behind]; rfl)]
    · intro zero
      cases noDigit '0' zero
  by_cases noDigit : ∀ c, (unsigned cs).head? = some c → isDigit 10 c = false
  case pos =>
    have zero : signedIn cs (value 10 []) = 0 := by simp [signedIn, value]
    rw [nothing noDigit, zero]
    exact standsFor_zero noDigit
  case neg =>
    push Not at noDigit
    obtain ⟨c, first, digit⟩ := noDigit
    obtain ⟨rest, behind⟩ := List.head?_eq_some_iff.mp first
    obtain ⟨front, longest⟩ := longest_magnitude (by simpa using digit) rest
    rw [← behind] at longest
    exact .inl longest.denotes

/-- A numeral with a sign and blanks in front of it decides, as far as the text behind it does not
make it longer. -/
theorem standsFor_of_not_continues {blanks s : List Char}
    (blank : ∀ c ∈ blanks, isBlankChar c = true) (isSign : IsSign s) (written : Written n digits)
    (ended : ¬ Continues digits rest) : StandsFor (blanks ++ s ++ digits ++ rest) (signed s n) := by
  refine .inl ⟨blanks ++ s ++ digits, List.prefix_append _ _, .mk blank isSign written, ?_⟩
  intro other z' begins denotes
  obtain ⟨digits', n', written', inside, -, extent⟩ := denotes.exists_written begins
  have behind : unsigned (blanks ++ s ++ digits ++ rest) = digits ++ rest := by
    rw [unsigned, written.sign_dropBlanks blank isSign]
  rw [behind] at inside extent
  have shorter : digits'.length ≤ digits.length := by
    refine Nat.le_of_not_lt fun longer => ended ?_
    obtain ⟨more, rfl⟩ :=
      List.prefix_of_prefix_length_le (List.prefix_append digits rest) inside (by omega)
    refine ⟨more, n', ?_, (List.prefix_append_right_inj digits).mp inside, written'⟩
    rintro rfl
    simp at longer
  simp only [List.length_append] at extent ⊢
  omega

/-- Unless a decimal numeral is too long, what is read from a text is the number of the longest
beginning that is an offset, and zero if no beginning is one. So a number is read from each of its
numerals, with blanks and a sign in front and any text behind that does not make the numeral longer;
every number has numerals in all three bases. -/
theorem parse_longest (short : ¬ TooLong cs) :
    (∃ z, parse cs = .ok z) ∧ (∀ z, parse cs = .ok z ↔ StandsFor cs z) ∧
      (∀ (z : Int) (blanks s digits rest : List Char), cs = blanks ++ s ++ digits ++ rest →
        (∀ c ∈ blanks, isBlankChar c = true) → IsSign s → Written z.natAbs digits →
        signed s z.natAbs = z → ¬ Continues digits rest → parse cs = .ok z) ∧
      ∀ (n : Nat) (mark : Char), mark = 'x' ∨ mark = 'X' →
        Written n ('0' :: mark :: Numeral.digits 16 n) ∧
          Written n ('0' :: mark :: (Numeral.digits 16 n).map Char.toUpper) ∧
          Written n ('0' :: Numeral.digits 8 n) ∧ Written n (Numeral.digits 10 n) := by
  have decides (z : Int) : parse cs = .ok z ↔ StandsFor cs z := by
    rw [parse_of_short short, Except.ok.injEq]
    constructor
    · rintro rfl
      exact standsFor_magnitude cs
    · exact (standsFor_magnitude cs).unique
  refine ⟨⟨_, parse_of_short short⟩, decides, ?_, fun n mark marked => ?_⟩
  · rintro z blanks s digits rest rfl blank isSign written sign ended
    rw [decides, ← sign]
    exact standsFor_of_not_continues blank isSign written ended
  · obtain ⟨lower, upper⟩ := Written.of_digits_hexadecimal marked n
    exact ⟨lower, upper, Written.of_digits_octal n, Written.of_digits_decimal n⟩

/-- The letter behind the two digits is no digit. -/
theorem parse_longest_hexadecimal :
    let text := ['\t', ' ', '-', '0', 'x', '1', 'F', 'g']
    ¬ TooLong text ∧ ¬ Continues ['0', 'x', '1', 'F'] ['g'] ∧ parse text = .ok (-31) := by
  intro text
  have short : ¬ TooLong text := by
    rw [tooLong_iff]
    decide
  have digit : ∀ d ∈ ['1', 'F'], isDigit 16 d = true := List.all_eq_true.mp (by decide)
  have ended : ¬ Continues ['0', 'x', '1', 'F'] ['g'] := by
    rw [continues_hexadecimal_iff (.inl rfl) digit]
    decide
  have written : Written 31 ['0', 'x', '1', 'F'] :=
    .hexadecimal (.inl rfl) (List.cons_ne_nil _ _) digit
  have blank : ∀ c ∈ ['\t', ' '], isBlankChar c = true := List.all_eq_true.mp (by decide)
  exact ⟨short, ended, (parse_longest short).2.2.1 (-31) ['\t', ' '] ['-'] ['0', 'x', '1', 'F']
    ['g'] rfl blank (.inr (.inr rfl)) written rfl ended⟩

end Bytewise.Offset

import Bytewise.Proofs.Numeral

/-!
# Texts read as whole numbers

A whole number in the settings of the environment may be written in more ways than it is printed:
with blanks around it, with a sign, with leading zeros, with the decimal digits of any script, and
with single underscores between digits. `WrittenWhole` is the grammar, and a text is read as a whole
number exactly if it is in the grammar (`readInteger?_eq_some_iff`).

What is cut off from both ends before the number is read are blanks, and nothing that a number is
written with is a blank, so there is only one way to find the number between them.
-/

namespace Bytewise.Numeral

variable {cs before body after : List Char} {ds : List Nat} {c : Char} {d : Nat} {z : Int}

/-! ## The grammar -/

/-- Decimal digits with their values, the most significant first. A single underscore may stand
between two of them. -/
inductive DigitRun : List Char → List Nat → Prop
  | last {c : Char} {d : Nat} (digit : decimalDigit? c = some d) : DigitRun [c] [d]
  | next {c : Char} {d : Nat} {cs : List Char} {ds : List Nat} (digit : decimalDigit? c = some d)
      (more : DigitRun cs ds) : DigitRun (c :: cs) (d :: ds)
  | underscore {c : Char} {d : Nat} {cs : List Char} {ds : List Nat}
      (digit : decimalDigit? c = some d) (more : DigitRun cs ds) :
      DigitRun (c :: '_' :: cs) (d :: ds)

/-- The number that digit values stand for, the most significant first. -/
def ofDigitValues (ds : List Nat) : Nat := Nat.ofDigits 10 ds.reverse

/-- A run of digits that is short enough to be converted, with or without a sign. -/
inductive Signed : List Char → Int → Prop
  | bare {cs : List Char} {ds : List Nat} (run : DigitRun cs ds) (short : ds.length ≤ digitLimit) :
      Signed cs (ofDigitValues ds)
  | plus {cs : List Char} {ds : List Nat} (run : DigitRun cs ds) (short : ds.length ≤ digitLimit) :
      Signed ('+' :: cs) (ofDigitValues ds)
  | minus {cs : List Char} {ds : List Nat} (run : DigitRun cs ds)
      (short : ds.length ≤ digitLimit) : Signed ('-' :: cs) (-ofDigitValues ds)

/-- The text of a whole number: a number with blanks around it. -/
def WrittenWhole (cs : List Char) (z : Int) : Prop :=
  ∃ before body after, cs = before ++ body ++ after ∧ (∀ c ∈ before, isOuterBlank c = true) ∧
    (∀ c ∈ after, isOuterBlank c = true) ∧ Signed body z

/-! ## Digits -/

theorem decimalDigit?_underscore : decimalDigit? '_' = none := by
  decide

theorem DigitRun.exists_cons (run : DigitRun cs ds) :
    ∃ c d tail, cs = c :: tail ∧ decimalDigit? c = some d := by
  cases run with
  | last digit => exact ⟨_, _, _, rfl, digit⟩
  | next digit _ => exact ⟨_, _, _, rfl, digit⟩
  | underscore digit _ => exact ⟨_, _, _, rfl, digit⟩

theorem DigitRun.of_decimalRun? (read : decimalRun? cs = some ds) : DigitRun cs ds := by
  induction cs using decimalRun?.induct generalizing ds with
  | case1 => cases read
  | case2 c rest none => simp [decimalRun?, none] at read
  | case3 c d digit =>
      obtain rfl : [d] = ds := by simpa [decimalRun?, digit] using read
      exact .last digit
  | case4 c d more digit ih =>
      obtain ⟨ds, run, rfl⟩ : ∃ a, decimalRun? more = some a ∧ d :: a = ds := by
        simpa [decimalRun?, digit] using read
      exact .underscore digit (ih run)
  | case5 c d next more ordinary digit ih =>
      obtain ⟨ds, run, rfl⟩ : ∃ a, decimalRun? (next :: more) = some a ∧ d :: a = ds := by
        simpa [decimalRun?, digit, ordinary] using read
      exact .next digit (ih run)

theorem DigitRun.decimalRun?_eq (run : DigitRun cs ds) : decimalRun? cs = some ds := by
  induction run with
  | last digit => simp [decimalRun?, digit]
  | underscore digit _ ih => simp [decimalRun?, digit, ih]
  | @next c d cs ds digit more ih =>
      obtain ⟨next, e, tail, rfl, digit'⟩ := more.exists_cons
      have ordinary : next ≠ '_' := by
        rintro rfl
        cases digit'.symm.trans decimalDigit?_underscore
      rw [decimalRun?.eq_5 _ _ _ _ ordinary digit, ih, Option.map_some]

theorem decimalRun?_eq_some_iff : decimalRun? cs = some ds ↔ DigitRun cs ds :=
  ⟨DigitRun.of_decimalRun?, DigitRun.decimalRun?_eq⟩

/-- A run of digits is read as the number it stands for if it is short enough. -/
theorem readNatural?_eq_some_iff {n : Nat} :
    readNatural? cs = some n ↔
      ∃ ds, DigitRun cs ds ∧ ds.length ≤ digitLimit ∧ n = ofDigitValues ds := by
  simp only [readNatural?, foldl_eq_ofDigits, ofDigitValues, ← decimalRun?_eq_some_iff]
  cases decimalRun? cs with
  | none => simp
  | some ds => simp [eq_comm]

theorem DigitRun.readNatural?_eq (run : DigitRun cs ds) (short : ds.length ≤ digitLimit) :
    readNatural? cs = some (ofDigitValues ds) :=
  readNatural?_eq_some_iff.mpr ⟨ds, run, short, rfl⟩

/-! ## Blanks and signs -/

/-- The sets of decimal digits stand in ranges between those of the blanks. -/
theorem range_of_mem_decimalZeros {first : Nat} (member : first ∈ decimalZeros) :
    first = 0x30 ∨ 0x660 ≤ first ∧ first + 10 ≤ 0x1680 ∨ 0x1680 < first ∧ first + 10 ≤ 0x2000 ∨
      0x3000 < first := by
  revert member first
  decide

theorem isOuterBlank_of_digit (digit : decimalDigit? c = some d) : isOuterBlank c = false := by
  obtain ⟨first, found, -⟩ := Option.map_eq_some_iff.mp digit
  have range := range_of_mem_decimalZeros (List.mem_of_find?_eq_some found)
  have inside : first ≤ c.toNat ∧ c.toNat < first + 10 := by
    simpa using List.find?_some found
  have notBlank : isBlankChar c = false := by
    simp only [isBlankChar, Bool.or_eq_false_iff, Bool.and_eq_false_iff, decide_eq_false_iff_not,
      beq_eq_false_iff_ne]
    omega
  rw [isOuterBlank, notBlank, Bool.false_and]

theorem ne_sign_of_digit (digit : decimalDigit? c = some d) : c ≠ '+' ∧ c ≠ '-' := by
  constructor
  · rintro rfl
    cases digit.symm.trans (by decide : decimalDigit? '+' = none)
  · rintro rfl
    cases digit.symm.trans (by decide : decimalDigit? '-' = none)

theorem DigitRun.isOuterBlank_eq_false (run : DigitRun cs ds) :
    ∀ c ∈ cs, isOuterBlank c = false := by
  induction run with
  | last digit => exact List.forall_mem_singleton.mpr (isOuterBlank_of_digit digit)
  | next digit _ ih => exact List.forall_mem_cons.mpr ⟨isOuterBlank_of_digit digit, ih⟩
  | underscore digit _ ih =>
      exact List.forall_mem_cons.mpr
        ⟨isOuterBlank_of_digit digit, List.forall_mem_cons.mpr ⟨rfl, ih⟩⟩

theorem Signed.isOuterBlank_eq_false (signed : Signed body z) :
    ∀ c ∈ body, isOuterBlank c = false := by
  cases signed with
  | bare run _ => exact run.isOuterBlank_eq_false
  | plus run _ => exact List.forall_mem_cons.mpr ⟨rfl, run.isOuterBlank_eq_false⟩
  | minus run _ => exact List.forall_mem_cons.mpr ⟨rfl, run.isOuterBlank_eq_false⟩

def trimOuter (cs : List Char) : List Char :=
  ((cs.dropWhile isOuterBlank).reverse.dropWhile isOuterBlank).reverse

/-- Every text is what is left of it, with blanks around. -/
theorem exists_eq_trimOuter (cs : List Char) :
    ∃ before after, cs = before ++ trimOuter cs ++ after ∧
      (∀ c ∈ before, isOuterBlank c = true) ∧ ∀ c ∈ after, isOuterBlank c = true := by
  let rest := cs.dropWhile isOuterBlank
  refine ⟨cs.takeWhile isOuterBlank, (rest.reverse.takeWhile isOuterBlank).reverse, ?_,
    fun c => List.mem_takeWhile_imp, fun c member => ?_⟩
  · rw [List.append_assoc, trimOuter, ← List.reverse_append, List.takeWhile_append_dropWhile,
      List.reverse_reverse, List.takeWhile_append_dropWhile]
  · exact List.mem_takeWhile_imp (List.mem_reverse.mp member)

theorem dropWhile_append_of_solid (solid : ∀ c ∈ body, isOuterBlank c = false)
    (blank : ∀ c ∈ after, isOuterBlank c = true) :
    (after ++ body).dropWhile isOuterBlank = body := by
  rw [List.dropWhile_append_of_pos blank]
  cases body with
  | nil => rfl
  | cons c tail => exact List.dropWhile_cons_of_neg (by simp [solid c List.mem_cons_self])

/-- Of a text without blanks in it, with blanks around it, the text is left. -/
theorem trimOuter_append (before_blank : ∀ c ∈ before, isOuterBlank c = true)
    (after_blank : ∀ c ∈ after, isOuterBlank c = true)
    (solid : ∀ c ∈ body, isOuterBlank c = false) :
    trimOuter (before ++ body ++ after) = body := by
  have solid' : ∀ c ∈ body.reverse, isOuterBlank c = false :=
    fun c member => solid c (List.mem_reverse.mp member)
  have blank : ∀ c ∈ after.reverse, isOuterBlank c = true :=
    fun c member => after_blank c (List.mem_reverse.mp member)
  rw [trimOuter, List.append_assoc, List.dropWhile_append_of_pos before_blank]
  cases body with
  | nil =>
      have nothing : after.dropWhile isOuterBlank = [] := List.dropWhile_eq_nil_iff.mpr after_blank
      rw [List.nil_append, nothing]
      rfl
  | cons c tail =>
      rw [List.cons_append, List.dropWhile_cons_of_neg (by simp [solid c List.mem_cons_self]),
        ← List.cons_append, List.reverse_append, dropWhile_append_of_solid solid' blank,
        List.reverse_reverse]

/-- Read a number that may have a sign, and has no blanks around it. -/
def readSigned? : List Char → Option Int
  | '+' :: rest => (readNatural? rest).map Int.ofNat
  | '-' :: rest => (readNatural? rest).map fun n => -(Int.ofNat n)
  | rest => (readNatural? rest).map Int.ofNat

theorem readInteger?_eq (cs : List Char) : readInteger? cs = readSigned? (trimOuter cs) := rfl

theorem readSigned?_eq_some_iff : readSigned? body = some z ↔ Signed body z := by
  constructor
  · intro read
    rw [readSigned?.eq_def] at read
    split at read
    all_goals
      obtain ⟨n, natural, rfl⟩ := Option.map_eq_some_iff.mp read
      obtain ⟨ds, run, short, rfl⟩ := readNatural?_eq_some_iff.mp natural
    · exact .plus run short
    · exact .minus run short
    · exact .bare run short
  · intro signed
    cases signed with
    | plus run short =>
        rw [readSigned?, run.readNatural?_eq short]
        rfl
    | minus run short =>
        rw [readSigned?, run.readNatural?_eq short]
        rfl
    | bare run short =>
        obtain ⟨c, d, tail, rfl, digit⟩ := run.exists_cons
        have noSign := ne_sign_of_digit digit
        rw [readSigned?.eq_3, run.readNatural?_eq short]
        · rfl
        · exact fun rest same => noSign.1 (List.cons.inj same).1
        · exact fun rest same => noSign.2 (List.cons.inj same).1

/-- A text is read as a whole number exactly if it is the text of that number. -/
theorem readInteger?_eq_some_iff : readInteger? cs = some z ↔ WrittenWhole cs z := by
  rw [readInteger?_eq, readSigned?_eq_some_iff]
  constructor
  · intro signed
    obtain ⟨before, after, parts, blank, blank'⟩ := exists_eq_trimOuter cs
    exact ⟨before, _, after, parts, blank, blank', signed⟩
  · rintro ⟨before, body, after, rfl, blank, blank', signed⟩
    rwa [trimOuter_append blank blank' signed.isOuterBlank_eq_false]

end Bytewise.Numeral

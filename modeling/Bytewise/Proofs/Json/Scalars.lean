import Bytewise.Json.Reader
import Bytewise.Json.Writer
import Bytewise.Proofs.Numeral
import Bytewise.Proofs.Text.Encoding

/-!
# JSON scalars read back

Every scalar that the writer can write is read back, with whatever stands behind it left over. A
string is read symbol by symbol: each symbol is written as itself, as a short escape, as an escape
by number, or as a pair of such escapes, and the reader takes each of these for the symbol
(`readString_writeSymbol`). A number ends where its digits end, so what stands behind it must not go
on with the number (`Closes`).
-/

namespace Bytewise.Json

variable {n fuel : Nat} {rest : List Char} {done t : Text} {c : Char}

/-! ## Escapes by number -/

theorem unit?_zeroPadded (small : n < 0x10000) (rest : List Char) :
    unit? (Numeral.zeroPadded 16 4 n ++ rest) = some (n, rest) := by
  have length : (Numeral.zeroPadded 16 4 n).length = 4 :=
    Numeral.length_zeroPadded (by decide) (by decide) small
  have value : Numeral.value 16 (Numeral.zeroPadded 16 4 n) = n :=
    Numeral.value_zeroPadded (by decide) (by decide) 4 n
  have digits : (Numeral.zeroPadded 16 4 n).all (Numeral.isDigit 16) = true := by
    rw [List.all_eq_true]
    exact fun c => Numeral.isDigit_of_mem_zeroPadded (by decide) (by decide)
  generalize Numeral.zeroPadded 16 4 n = cs at length value digits
  obtain ⟨a, b, c, d, rfl⟩ := List.length_eq_four.mp length
  simp only [List.cons_append, List.nil_append, unit?]
  rw [if_pos digits, value]

/-- An escape by number outside the range of pairs. -/
theorem escape?_unit (small : n < 0x10000) (single : n < 0xD800 ∨ 0xDFFF < n) (rest : List Char) :
    escape? ('u' :: (Numeral.zeroPadded 16 4 n ++ rest)) = some (.char (Char.ofNat n), rest) := by
  have notHigh : ¬ (decide (0xD800 ≤ n) && decide (n ≤ 0xDBFF)) = true := by
    simp only [Bool.and_eq_true, decide_eq_true_eq]
    omega
  have notStray : ¬ (decide (0xDC80 ≤ n) && decide (n ≤ 0xDCFF)) = true := by
    simp only [Bool.and_eq_true, decide_eq_true_eq]
    omega
  have notHalf : ¬ (decide (0xD800 ≤ n) && decide (n ≤ 0xDFFF)) = true := by
    simp only [Bool.and_eq_true, decide_eq_true_eq]
    omega
  simp only [escape?, unit?_zeroPadded small]
  rw [if_neg notHigh, unitSymbol, if_neg notStray, if_neg notHalf]

/-- A pair of escapes by number stands for a character beyond them. -/
theorem escape?_pair (small : n < 0x100000) (rest : List Char) :
    escape? ('u' :: (Numeral.zeroPadded 16 4 (0xD800 + n / 0x400) ++
      (unitEscape (0xDC00 + n % 0x400) ++ rest))) =
      some (.char (Char.ofNat (0x10000 + n)), rest) := by
  have high : (decide (0xD800 ≤ 0xD800 + n / 0x400) && decide (0xD800 + n / 0x400 ≤ 0xDBFF)) =
      true := by
    simp only [Bool.and_eq_true, decide_eq_true_eq]
    omega
  have low : (decide (0xDC00 ≤ 0xDC00 + n % 0x400) && decide (0xDC00 + n % 0x400 ≤ 0xDFFF)) =
      true := by
    simp only [Bool.and_eq_true, decide_eq_true_eq]
    omega
  have second : lowHalf? (unitEscape (0xDC00 + n % 0x400) ++ rest) =
      some (0xDC00 + n % 0x400, rest) := by
    simp only [unitEscape, List.cons_append, lowHalf?,
      unit?_zeroPadded (n := 0xDC00 + n % 0x400) (by omega)]
    rw [if_pos low]
  simp only [escape?, unit?_zeroPadded (n := 0xD800 + n / 0x400) (by omega)]
  rw [if_pos high, second]
  have joined : 0x10000 + (0xD800 + n / 0x400 - 0xD800) * 0x400 + (0xDC00 + n % 0x400 - 0xDC00) =
      0x10000 + n := by
    omega
  simp only [joined]

/-! ## Strings -/

theorem readString_escape {cs : List Char} {s : Symbol} (read : escape? cs = some (s, rest)) :
    readString (fuel + 1) done ('\\' :: cs) = readString fuel (s :: done) rest := by
  simp only [readString, read]

theorem readString_plain (quote : c ≠ '"') (backslash : c ≠ '\\') (shown : 0x20 ≤ c.toNat) :
    readString (fuel + 1) done (c :: rest) = readString fuel (.char c :: done) rest := by
  rw [readString.eq_def]
  split <;> simp_all

/-- The number of a character leaves out the range of pairs. -/
theorem toNat_valid (c : Char) : c.toNat < 0xD800 ∨ 0xDFFF < c.toNat ∧ c.toNat < 0x110000 := c.valid

/-- The reader takes a written character for that character. -/
theorem readString_writeSymbol (c : Char) (fuel : Nat) (done : Text) (rest : List Char) :
    readString (fuel + 1) done (writeSymbol (.char c) ++ rest) =
      readString fuel (.char c :: done) rest := by
  have valid := toNat_valid c
  have whole : Char.ofNat c.toNat = c := Char.ofNat_toNat c
  rw [writeSymbol]
  -- The seven short escapes come first.
  iterate 7
    split
    next same =>
      subst same
      exact readString_escape rfl
  split
  next quote backslash _ _ _ _ _ shown =>
    have least : ' ' ≤ c := by simpa using (Bool.and_eq_true_iff.mp shown).1
    exact readString_plain quote backslash least
  split
  next small =>
    have read := escape?_unit small (by omega) rest
    rw [whole] at read
    exact readString_escape read
  next large =>
    obtain ⟨n, number⟩ := Nat.exists_eq_add_of_le (Nat.not_lt.mp large)
    have read := escape?_pair (n := n) (by omega) rest
    rw [← number, whole] at read
    have beyond : c.toNat - 0x10000 = n := by omega
    simp only [beyond, unitEscape, List.cons_append, List.append_assoc] at read ⊢
    exact readString_escape read

/-- A written text is read back, and each symbol takes one step. -/
theorem readString_flatMap (printable : t.Printable) (enough : t.length < fuel) (done : Text)
    (rest : List Char) :
    readString fuel done (t.flatMap writeSymbol ++ '"' :: rest) =
      .ok (done.reverse ++ t, rest) := by
  induction t generalizing fuel done with
  | nil =>
      obtain ⟨fuel, rfl⟩ := Nat.exists_eq_succ_of_ne_zero (Nat.ne_of_gt enough)
      simp [readString]
  | cons s t ih =>
      obtain ⟨first, others⟩ := List.forall_mem_cons.mp printable
      obtain ⟨fuel, rfl⟩ := Nat.exists_eq_add_one.mpr (Nat.zero_lt_of_lt enough)
      cases s with
      | stray b => cases first
      | char c =>
          rw [List.flatMap_cons, List.append_assoc, readString_writeSymbol,
            ih others (by simpa using enough)]
          simp

theorem writeSymbol_ne_nil (s : Symbol) : writeSymbol s ≠ [] := by
  cases s with
  | stray b => exact List.cons_ne_nil _ _
  | char c =>
      rw [writeSymbol]
      repeat' split
      all_goals exact List.cons_ne_nil _ _

theorem length_le_flatMap_writeSymbol (t : Text) : t.length ≤ (t.flatMap writeSymbol).length := by
  induction t with
  | nil => rfl
  | cons s t ih =>
      have least := List.length_pos_iff.mpr (writeSymbol_ne_nil s)
      rw [List.flatMap_cons, List.length_append, List.length_cons]
      omega

/-- The text left is fuel enough for a string in front of it. -/
theorem readString_writeString (printable : t.Printable) (rest : List Char) :
    readString ((t.flatMap writeSymbol ++ '"' :: rest).length + 1) []
      (t.flatMap writeSymbol ++ '"' :: rest) = .ok (t, rest) := by
  have least := length_le_flatMap_writeSymbol t
  apply readString_flatMap printable
  rw [List.length_append]
  omega

/-! ## Numbers -/

/-- What may stand behind a value: nothing, the next item, or the end of the line. -/
inductive Closes : List Char → Prop where
  | nothing : Closes []
  | comma (rest : List Char) : Closes (',' :: rest)
  | line (rest : List Char) : Closes ('\n' :: rest)

theorem digitRun_append {ds : List Char} (digits : ∀ c ∈ ds, Numeral.isDigit 10 c = true)
    (closes : Closes rest) : digitRun (ds ++ rest) = (ds, rest) := by
  have stop : rest.takeWhile (Numeral.isDigit 10) = [] ∧
      rest.dropWhile (Numeral.isDigit 10) = rest := by
    cases closes <;> exact ⟨rfl, rfl⟩
  rw [digitRun, List.takeWhile_append_of_pos digits, List.dropWhile_append_of_pos digits, stop.1,
    stop.2, List.append_nil]

theorem wholePart?_digits (n : Nat) (closes : Closes rest) :
    wholePart? (Numeral.digits 10 n ++ rest) = some (Numeral.digits 10 n, rest) := by
  obtain ⟨c, front, written⟩ :=
    List.exists_cons_of_ne_nil (@Numeral.digits_ne_nil 10 (by decide) n)
  have digits : ∀ c ∈ Numeral.digits 10 n, Numeral.isDigit 10 c = true :=
    fun c => Numeral.isDigit_of_mem_digits (by decide) (by decide)
  have run := digitRun_append digits closes
  rw [written, List.cons_append] at run ⊢
  rw [wholePart?.eq_def]
  split
  next first =>
    obtain ⟨rfl, rfl⟩ := List.cons.inj first
    obtain ⟨rfl, rfl⟩ := (Numeral.digits_eq_zero_cons_iff (by decide) (by decide)).mp written
    rfl
  next => rw [run]

/-- A number without its sign is read back if it is not too long. -/
theorem readMagnitude_digits (negative : Bool)
    (short : (Numeral.digits 10 n).length ≤ Numeral.digitLimit) (closes : Closes rest) :
    readMagnitude negative (Numeral.digits 10 n ++ rest) =
      .ok (.int (if negative then -(n : Int) else n), rest) := by
  have noFraction : fraction rest = ([], rest) := by cases closes <;> rfl
  have noExponent : exponent? rest = none := by cases closes <;> rfl
  have value : readDecimalNumeral (Numeral.digits 10 n) = .ok n := by
    rw [readDecimalNumeral, if_neg (Nat.not_lt.mpr short),
      Numeral.value_digits (by decide) (by decide)]
  simp only [readMagnitude, wholePart?_digits n closes, noFraction, noExponent, value,
    List.isEmpty_nil]
  rfl

/-! ## Values that hold no others -/

/-- A decimal digit begins no word. -/
theorem dropWord?_of_isDigit (word : String) {first : Char} {letters : List Char}
    (spelt : word.toList = first :: letters) (letter : Numeral.isDigit 10 first = false)
    (digit : Numeral.isDigit 10 c = true) : dropWord? word (c :: rest) = none := by
  have differs : first ≠ c := by
    rintro rfl
    exact absurd (letter.symm.trans digit) (by decide)
  simp [dropWord?, spelt, List.isPrefixOf, differs]

/-- Digits are read as a number, since no word and no string begins with one. -/
theorem readScalar_digits (short : (Numeral.digits 10 n).length ≤ Numeral.digitLimit)
    (closes : Closes rest) :
    readScalar (Numeral.digits 10 n ++ rest) = .ok (.int n, rest) := by
  have read := readMagnitude_digits false short closes
  obtain ⟨c, front, written⟩ := List.exists_cons_of_ne_nil (@Numeral.digits_ne_nil 10 (by decide) n)
  have digit : Numeral.isDigit 10 c = true :=
    Numeral.isDigit_of_mem_digits (by decide) (by decide) (written ▸ List.mem_cons_self)
  rw [written, List.cons_append] at read ⊢
  rw [readScalar.eq_def]
  split
  next first =>
    rw [(List.cons.inj first).1] at digit
    cases digit
  next first =>
    rw [(List.cons.inj first).1] at digit
    cases digit
  next =>
    simp only [List.findSome?_cons, List.findSome?_nil, Option.map_none,
      dropWord?_of_isDigit "null" rfl rfl digit, dropWord?_of_isDigit "true" rfl rfl digit,
      dropWord?_of_isDigit "false" rfl rfl digit, dropWord?_of_isDigit "NaN" rfl rfl digit,
      dropWord?_of_isDigit "Infinity" rfl rfl digit, read]
    rfl

theorem readScalar_minus_digits (short : (Numeral.digits 10 n).length ≤ Numeral.digitLimit)
    (closes : Closes rest) :
    readScalar ('-' :: (Numeral.digits 10 n ++ rest)) = .ok (.int (-(n : Int)), rest) := by
  have read := readMagnitude_digits true short closes
  obtain ⟨c, front, written⟩ := List.exists_cons_of_ne_nil (@Numeral.digits_ne_nil 10 (by decide) n)
  have digit : Numeral.isDigit 10 c = true :=
    Numeral.isDigit_of_mem_digits (by decide) (by decide) (written ▸ List.mem_cons_self)
  rw [written, List.cons_append] at read ⊢
  simp only [readScalar, dropWord?_of_isDigit "Infinity" rfl rfl digit, read]
  rfl

theorem readScalar_decimal {z : Int} (short : Numeral.isShort z = true) (closes : Closes rest) :
    readScalar (Numeral.decimal z ++ rest) = .ok (.int z, rest) := by
  have few := Numeral.isShort_iff.mp short
  cases z with
  | ofNat n => exact readScalar_digits few closes
  | negSucc n => exact readScalar_minus_digits few closes

theorem readScalar_null (rest : List Char) :
    readScalar ("null".toList ++ rest) = .ok (.null, rest) := rfl

theorem readScalar_bool (b : Bool) (rest : List Char) :
    readScalar ((if b then "true".toList else "false".toList) ++ rest) = .ok (.bool b, rest) := by
  cases b <;> rfl

theorem readScalar_writeString (printable : t.Printable) (rest : List Char) :
    readScalar (writeString t ++ rest) = .ok (.text t, rest) := by
  have read := readString_writeString printable rest
  simp only [writeString, List.cons_append, List.append_assoc, List.nil_append,
    readScalar] at read ⊢
  rw [read]
  rfl

end Bytewise.Json

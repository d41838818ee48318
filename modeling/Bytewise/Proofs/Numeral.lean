import Bytewise.Numeral
import Mathlib

/-!
# Written numbers read back

The digits of a number in a base up to sixteen are digits of that base and read back as the number;
zeros in front change nothing. A number below the power of the base that a width stands for is
written with exactly that many digits.
-/

namespace Bytewise.Numeral

variable {base n : Nat}

theorem digit?_digitChar (small : n < 16) : digit? n.digitChar = some n := by
  revert n
  decide

theorem isDigit_digitChar (valid : base ≤ 16) (small : n < base) :
    isDigit base n.digitChar = true := by
  simp [isDigit, digit?_digitChar (Nat.lt_of_lt_of_le small valid), small]

/-- Digits stand in three ranges of characters. -/
theorem toNat_of_isDigit {c : Char} (digit : isDigit base c = true) :
    48 ≤ c.toNat ∧ c.toNat ≤ 57 ∨ 65 ≤ c.toNat ∧ c.toNat ≤ 70 ∨ 97 ≤ c.toNat ∧ c.toNat ≤ 102 := by
  have valued : (digit? c).isSome := by
    cases read : digit? c with
    | none => simp [isDigit, read] at digit
    | some d => rfl
  simp only [digit?, Char.le_def, UInt32.le_iff_toNat_le, Bool.and_eq_true,
    decide_eq_true_eq] at valued
  split at valued
  next decimal => exact .inl decimal
  next =>
    split at valued
    next lower => exact .inr (.inr lower)
    next =>
      split at valued
      next upper => exact .inr (.inl upper)
      next => cases valued

/-- A property of digits holds if it does of those among the first characters. -/
theorem forall_isDigit {P : Char → Prop}
    (small : ∀ n < 128, isDigit base (Char.ofNat n) = true → P (Char.ofNat n)) {c : Char}
    (digit : isDigit base c = true) : P c := by
  have ranges := toNat_of_isDigit digit
  rw [← Char.ofNat_toNat c] at digit ⊢
  exact small c.toNat (by omega) digit

theorem value_append (base : Nat) (cs ds : List Char) :
    value base (cs ++ ds) =
      ds.foldl (fun n c => n * base + (digit? c).getD 0) (value base cs) :=
  List.foldl_append

/-- Numbers read digit by digit are sums of the digits, each times the power of the base of its
place. -/
theorem foldl_eq_ofDigits (base : Nat) (ds : List Nat) :
    ds.foldl (fun n d => n * base + d) 0 = Nat.ofDigits base ds.reverse := by
  rw [Nat.ofDigits_eq_foldr, List.foldr_reverse]
  refine List.foldl_ext _ _ _ fun n d _ => ?_
  rw [Nat.cast_id, Nat.add_comm, Nat.mul_comm]

theorem value_eq_ofDigits (base : Nat) (cs : List Char) :
    value base cs = Nat.ofDigits base (cs.reverse.map fun c => (digit? c).getD 0) := by
  rw [List.map_reverse, ← foldl_eq_ofDigits, List.foldl_map, value]

theorem value_concat_digitChar (cs : List Char) (small : n < 16) :
    value base (cs ++ [n.digitChar]) = value base cs * base + n := by
  simp [value_append, digit?_digitChar small]

theorem value_digits (positional : 1 < base) (valid : base ≤ 16) (n : Nat) :
    value base (digits base n) = n := by
  induction n using Nat.strongRecOn with
  | ind n ih =>
      rw [digits, Nat.toDigits_eq_if positional]
      split
      next single =>
        have read : value base ([] ++ [n.digitChar]) = value base [] * base + n :=
          value_concat_digitChar [] (Nat.lt_of_lt_of_le single valid)
        simpa [value] using read
      next =>
        have small : n % base < base := Nat.mod_lt n (by omega)
        rw [value_concat_digitChar _ (Nat.lt_of_lt_of_le small valid),
          ih (n / base) (Nat.div_lt_self (by omega) positional)]
        exact Nat.div_add_mod' n base

theorem isDigit_of_mem_digits (positional : 1 < base) (valid : base ≤ 16) {c : Char}
    (member : c ∈ digits base n) : isDigit base c = true := by
  induction n using Nat.strongRecOn with
  | ind n ih =>
      rw [digits, Nat.toDigits_eq_if positional] at member
      split at member
      next single =>
        rw [List.mem_singleton.mp member]
        exact isDigit_digitChar valid single
      next =>
        obtain front | last := List.mem_append.mp member
        · exact ih (n / base) (Nat.div_lt_self (by omega) positional) front
        · rw [List.mem_singleton.mp last]
          exact isDigit_digitChar valid (Nat.mod_lt n (by omega))

theorem digits_ne_nil (positional : 1 < base) (n : Nat) : digits base n ≠ [] := by
  rw [digits, Nat.toDigits_eq_if positional]
  split <;> simp

theorem digits_injective (positional : 1 < base) (valid : base ≤ 16) :
    Function.Injective (digits base) :=
  Function.LeftInverse.injective (value_digits positional valid)

/-- Only zero is written with a leading zero. -/
theorem digits_eq_zero_cons_iff {cs : List Char} (positional : 1 < base) (valid : base ≤ 16) :
    digits base n = '0' :: cs ↔ n = 0 ∧ cs = [] := by
  constructor
  · intro written
    induction n using Nat.strongRecOn generalizing cs with
    | ind n ih =>
        rw [digits, Nat.toDigits_eq_if positional] at written
        split at written
        next single =>
          obtain ⟨first, rfl⟩ := List.cons.inj written
          have read := digit?_digitChar (Nat.lt_of_lt_of_le single valid)
          rw [first] at read
          exact ⟨(Option.some.inj read).symm, rfl⟩
        next large =>
          obtain ⟨c, front, digits⟩ :=
            List.exists_cons_of_ne_nil (digits_ne_nil positional (n / base))
          have front : Nat.toDigits base (n / base) = c :: front := digits
          rw [front, List.cons_append] at written
          obtain ⟨rfl, -⟩ := List.cons.inj written
          have zero := (ih (n / base) (Nat.div_lt_self (by omega) positional) digits).1
          have least := Nat.div_pos (Nat.not_lt.mp large) (by omega)
          omega
  · rintro ⟨rfl, rfl⟩
    rw [digits, Nat.toDigits_eq_if positional, if_pos (by omega)]
    rfl

/-! ## Capital letters -/

theorem digit?_toUpper {c : Char} (digit : isDigit 16 c = true) : digit? c.toUpper = digit? c := by
  revert digit
  apply forall_isDigit
  decide

theorem isDigit_toUpper {c : Char} (digit : isDigit 16 c = true) :
    isDigit 16 c.toUpper = true := by
  rwa [isDigit, digit?_toUpper digit]

theorem value_map_toUpper {cs : List Char} (digits : ∀ c ∈ cs, isDigit 16 c = true) :
    value 16 (cs.map Char.toUpper) = value 16 cs := by
  rw [value, List.foldl_map]
  refine List.foldl_ext _ _ _ fun n c member => ?_
  rw [digit?_toUpper (digits c member)]

/-! ## Integers -/

theorem length_digits_le_iff {limit : Nat} (positive : 0 < limit) :
    (digits 10 n).length ≤ limit ↔ n < powerOfTen limit :=
  Nat.length_toDigits_le_iff (by decide) positive

theorem isShort_iff {z : Int} :
    isShort z = true ↔ (digits 10 z.natAbs).length ≤ digitLimit := by
  rw [isShort, decide_eq_true_iff, length_digits_le_iff (by decide)]

theorem isDigit_or_minus_of_mem_decimal {z : Int} {c : Char} (member : c ∈ decimal z) :
    isDigit 10 c = true ∨ c = '-' := by
  cases z with
  | ofNat n => exact .inl (isDigit_of_mem_digits (by decide) (by decide) member)
  | negSucc n =>
      obtain minus | digit := List.mem_cons.mp member
      · exact .inr minus
      · exact .inl (isDigit_of_mem_digits (by decide) (by decide) digit)

theorem ne_of_mem_decimal {z : Int} {c d : Char} (member : c ∈ decimal z)
    (other : isDigit 10 d = false ∧ d ≠ '-') : c ≠ d := by
  rintro rfl
  obtain digit | minus := isDigit_or_minus_of_mem_decimal member
  · exact absurd (other.1.symm.trans digit) (by decide)
  · exact other.2 minus

theorem decimal_ne_nil (z : Int) : decimal z ≠ [] := by
  cases z with
  | ofNat n => exact digits_ne_nil (by decide) n
  | negSucc n => exact List.cons_ne_nil _ _

theorem minus_not_mem_digits (n : Nat) : '-' ∉ digits 10 n := by
  intro member
  cases isDigit_of_mem_digits (by decide) (by decide) member

theorem decimal_injective : Function.Injective decimal := by
  have natural : Function.Injective (digits 10) := digits_injective (by decide) (by decide)
  intro z z' same
  cases z with
  | ofNat n =>
      cases z' with
      | ofNat n' => exact congrArg Int.ofNat (natural same)
      | negSucc n' =>
          have member : '-' ∈ decimal (.ofNat n) := same ▸ List.mem_cons_self
          exact absurd member (minus_not_mem_digits n)
  | negSucc n =>
      cases z' with
      | ofNat n' =>
          have member : '-' ∈ decimal (.ofNat n') := same ▸ List.mem_cons_self
          exact absurd member (minus_not_mem_digits n')
      | negSucc n' =>
          have next : n + 1 = n' + 1 := natural (List.cons.inj same).2
          rw [Nat.succ.inj next]

/-! ## Zeros in front -/

theorem value_zeros (base count : Nat) : value base (List.replicate count '0') = 0 := by
  induction count with
  | zero => rfl
  | succ count ih =>
      rw [List.replicate_succ', value_append, ih]
      simp [digit?]

theorem value_zeroPadded (positional : 1 < base) (valid : base ≤ 16) (width n : Nat) :
    value base (zeroPadded base width n) = n := by
  rw [zeroPadded, padLeft, value_append, value_zeros]
  exact value_digits positional valid n

theorem isDigit_of_mem_zeroPadded (positional : 1 < base) (valid : base ≤ 16) {width : Nat}
    {c : Char} (member : c ∈ zeroPadded base width n) : isDigit base c = true := by
  obtain zero | digit := List.mem_append.mp member
  · rw [(List.mem_replicate.mp zero).2]
    exact isDigit_digitChar (n := 0) valid (by omega)
  · exact isDigit_of_mem_digits positional valid digit

theorem length_zeroPadded (positional : 1 < base) {width : Nat} (wide : 0 < width)
    (fits : n < base ^ width) : (zeroPadded base width n).length = width := by
  have short : (digits base n).length ≤ width :=
    (Nat.length_toDigits_le_iff positional wide).mpr fits
  rw [zeroPadded, padLeft, List.length_append, List.length_replicate]
  omega

end Bytewise.Numeral

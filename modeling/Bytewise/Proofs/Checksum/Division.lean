import Bytewise.Proofs.Checksum.Register
import Mathlib

/-!
# The CRC as the remainder of a division

The bits of the data, each byte from its lowest bit on, are the coefficients of a polynomial over
the field of two elements, the first bit at the highest degree. The checksum is the remainder of
that polynomial, moved up by 32 places and with its first 32 bits inverted, under division by a
fixed polynomial; the remainder is read from its lowest bit on as well, and inverted
(`crcByDivision`).

The register follows the division: taking in a byte multiplies by `X ^ 8` and adds the byte, up to a
multiple of the divisor. So the register is the remainder at every moment
(`crc32_checksum_eq_crcByDivision`).
-/

namespace Bytewise.Algorithm

open Polynomial

/-! ## Numbers as polynomials -/

/-- The lowest bits of a number as a polynomial, the lowest bit at the highest degree. -/
noncomputable def reflected (width n : Nat) : (ZMod 2)[X] :=
  ∑ i ∈ Finset.range width, if n.testBit (width - 1 - i) then X ^ i else 0

variable {width n : Nat}

theorem coeff_reflected (width n k : Nat) :
    (reflected width n).coeff k = if k < width ∧ n.testBit (width - 1 - k) then 1 else 0 := by
  have term (i : Nat) : (if n.testBit (width - 1 - i) then X ^ i else (0 : (ZMod 2)[X])).coeff k =
      if i = k then (if n.testBit (width - 1 - k) then 1 else 0) else 0 := by
    by_cases same : i = k
    · subst same
      split <;> simp
    · split <;> simp [coeff_X_pow, Ne.symm same]
  rw [reflected, finsetSum_coeff]
  simp only [term, Finset.sum_ite_eq', Finset.mem_range]
  by_cases small : k < width <;> simp [small]

theorem degree_reflected_lt (width n : Nat) : (reflected width n).degree < width := by
  rw [degree_lt_iff_coeff_zero]
  intro k large
  rw [coeff_reflected, if_neg fun bit => absurd bit.1 (Nat.not_lt.mpr large)]

/-- Polynomials are added, and subtracted, by exclusive or. -/
theorem reflected_xor (width m n : Nat) :
    reflected width (m ^^^ n) = reflected width m + reflected width n := by
  ext k
  simp only [coeff_add, coeff_reflected, Nat.testBit_xor]
  by_cases small : k < width
  · have two : (1 : ZMod 2) + 1 = 0 := by decide
    cases m.testBit (width - 1 - k) <;> cases n.testBit (width - 1 - k) <;> simp [small, two]
  · simp [small]

/-- Shifting out the lowest bit multiplies by `X`, with the bit that is lost as the overflow. -/
theorem X_mul_reflected (fits : n < 2 ^ width) :
    X * reflected width n =
      reflected width (n / 2) + if n.testBit 0 then X ^ width else 0 := by
  have half (i : Nat) : (n / 2).testBit i = n.testBit (i + 1) := by rw [Nat.testBit_div_two]
  have beyond : n.testBit width = false := Nat.testBit_lt_two_pow fits
  have overflow (k : Nat) : (if n.testBit 0 then X ^ width else (0 : (ZMod 2)[X])).coeff k =
      if n.testBit 0 ∧ k = width then 1 else 0 := by
    split <;> simp_all [coeff_X_pow]
  ext k
  rw [coeff_add, overflow, coeff_reflected, half]
  cases k with
  | zero =>
      rw [coeff_X_mul_zero]
      cases width with
      | zero => simp [beyond]
      | succ width => simp [beyond]
  | succ k =>
      rw [coeff_X_mul, coeff_reflected]
      obtain small | last | large := Nat.lt_trichotomy (k + 1) width
      · have place : width - 1 - (k + 1) + 1 = width - 1 - k := by omega
        simp [small, place, Nat.lt_of_succ_lt small, Nat.ne_of_lt small]
      · subst last
        simp
      · simp [show ¬ k < width by omega, show ¬ k + 1 < width by omega, Nat.ne_of_gt large]

/-- A byte stands at the highest eight of 32 places. -/
theorem reflected_byte (fits : n < 2 ^ 8) : reflected 32 n = X ^ 24 * reflected 8 n := by
  ext k
  rw [coeff_X_pow_mul', coeff_reflected]
  by_cases high : 24 ≤ k
  · have place : 8 - 1 - (k - 24) = 32 - 1 - k := by omega
    rw [if_pos high, coeff_reflected, place]
    simp [show k < 32 ↔ k - 24 < 8 by omega]
  · have zero : n.testBit (32 - 1 - k) = false :=
      Nat.testBit_lt_two_pow (Nat.lt_of_lt_of_le fits (Nat.pow_le_pow_right (by decide) (by omega)))
    simp [high, zero]

/-! ## The division -/

/-- The divisor: the polynomial whose lower coefficients are the bits of `0xEDB88320`, reflected. -/
noncomputable def crcPolynomial : (ZMod 2)[X] := X ^ 32 + reflected 32 0xEDB88320

/-- The bits of the data as a polynomial, the first bit at the highest degree. -/
noncomputable def message : Bytes → (ZMod 2)[X]
  | [] => 0
  | b :: rest => X ^ (8 * rest.length) * reflected 8 b.toNat + message rest

/-- What is divided: the data moved up by 32 places, with its first 32 bits inverted. -/
noncomputable def crcDividend (data : Bytes) : (ZMod 2)[X] :=
  X ^ (8 * data.length) * reflected 32 0xFFFFFFFF + X ^ 32 * message data

noncomputable def crcByDivision (data : Bytes) : Nat :=
  (Nat.ofBits fun i : Fin 32 => (crcDividend data %ₘ crcPolynomial).coeff (31 - i) = 1) ^^^
    0xFFFFFFFF

theorem monic_crcPolynomial : crcPolynomial.Monic :=
  monic_X_pow_add (degree_reflected_lt 32 _)

theorem degree_crcPolynomial : crcPolynomial.degree = 32 := by
  have lower : (reflected 32 0xEDB88320).degree < (X ^ 32 : (ZMod 2)[X]).degree := by
    rw [degree_X_pow]
    exact degree_reflected_lt 32 _
  rw [crcPolynomial, degree_add_eq_left_of_degree_lt lower, degree_X_pow]
  rfl

/-! ## The register -/

/-- A polynomial up to multiples of the divisor. -/
noncomputable abbrev residue : (ZMod 2)[X] →+* AdjoinRoot crcPolynomial :=
  AdjoinRoot.mk crcPolynomial

theorem residue_X_pow : residue (X ^ 32) = residue (reflected 32 0xEDB88320) := by
  apply AdjoinRoot.mk_eq_mk.mpr
  rw [CharTwo.sub_eq_add]
  exact dvd_refl crcPolynomial

/-- A division step multiplies by `X`. -/
theorem residue_crcShift (r : UInt32) :
    residue (reflected 32 (crcShift r).toNat) = residue X * residue (reflected 32 r.toNat) := by
  have low : r &&& 1 = 1 ↔ r.toNat.testBit 0 = true := by
    rw [lowBit_iff, Nat.testBit_zero, decide_eq_true_iff]
  rw [← map_mul, X_mul_reflected r.toNat_lt, crcShift]
  split
  next odd =>
    rw [if_pos (low.mp odd), UInt32.toNat_xor, toNat_half, reflected_xor, map_add, map_add,
      residue_X_pow]
    rfl
  next even =>
    rw [if_neg fun bit => even (low.mpr bit), toNat_half, add_zero]

theorem residue_crcByte (r : UInt32) (b : UInt8) :
    residue (reflected 32 (crcByte r b).toNat) =
      residue (X ^ 8 * reflected 32 r.toNat + X ^ 32 * reflected 8 b.toNat) := by
  have taken : reflected 32 (r ^^^ b.toUInt32).toNat =
      reflected 32 r.toNat + X ^ 24 * reflected 8 b.toNat := by
    rw [UInt32.toNat_xor, reflected_xor, UInt8.toNat_toUInt32, reflected_byte b.toNat_lt]
  simp only [crcByte, residue_crcShift, taken, map_add, map_mul, map_pow]
  ring

/-- The register after some data is the remainder of the data, up to multiples of the divisor. -/
theorem residue_foldl_crcByte (r : UInt32) (data : Bytes) :
    residue (reflected 32 (data.foldl crcByte r).toNat) =
      residue (X ^ (8 * data.length) * reflected 32 r.toNat + X ^ 32 * message data) := by
  induction data generalizing r with
  | nil => simp [message]
  | cons b rest ih =>
      rw [List.foldl_cons, ih, map_add, map_mul, residue_crcByte]
      simp only [message, List.length_cons, map_add, map_mul, map_pow]
      ring

/-- The register after all the data is the remainder. -/
theorem reflected_register (data : Bytes) :
    reflected 32 (data.foldl crcByte (0xFFFFFFFF : UInt32)).toNat =
      crcDividend data %ₘ crcPolynomial := by
  have same := residue_foldl_crcByte 0xFFFFFFFF data
  have divides := AdjoinRoot.mk_eq_mk.mp same
  have reduced : (reflected 32 (data.foldl crcByte (0xFFFFFFFF : UInt32)).toNat).degree <
      crcPolynomial.degree := by
    rw [degree_crcPolynomial]
    exact degree_reflected_lt 32 _
  rw [← (modByMonic_eq_self_iff monic_crcPolynomial).mpr reduced]
  exact modByMonic_eq_of_dvd_sub monic_crcPolynomial divides

/-- A number of 32 bits can be read off its polynomial. -/
theorem ofBits_coeff_reflected (fits : n < 2 ^ 32) :
    (Nat.ofBits fun i : Fin 32 => (reflected 32 n).coeff (31 - i) = 1) = n := by
  apply Nat.eq_of_testBit_eq
  intro i
  rw [Nat.testBit_ofBits]
  split
  next small =>
    have place : 32 - 1 - (31 - i) = i := by omega
    simp [coeff_reflected, place, show 31 - i < 32 by omega]
  next large =>
    exact (Nat.testBit_lt_two_pow
      (Nat.lt_of_lt_of_le fits (Nat.pow_le_pow_right (by decide) (by omega)))).symm

theorem crc32_checksum_eq_crcByDivision (data : Bytes) :
    Algorithm.checksum .crc32 data = crcByDivision data := by
  rw [crcByDivision, ← reflected_register, ofBits_coeff_reflected (UInt32.toNat_lt _)]
  exact UInt32.toNat_xor _ _

end Bytewise.Algorithm

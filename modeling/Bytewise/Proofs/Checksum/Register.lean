import Bytewise.Checksum.Algorithm
import Mathlib

/-!
# Registers of running checksums

A byte moves the register of each algorithm in a way that can be undone: two different registers
stay different under the same byte, and one register goes to different places under different bytes.
The registers of the CRC and of the rotating sum are machine words, and any word will do. The two
sums of Adler-32 are plain numbers, and there the law needs them to be reduced; `Reduced` says so
and every run keeps it.

A reduced register can be told from its checksum, so a single changed byte always shows in the
checksum (`checksum_set_ne`), whatever stands before and after it.
-/

namespace Bytewise.Algorithm

/-! ## The CRC -/

/-- The bits of a remainder that a shift keeps. -/
theorem toNat_half (r : UInt32) : (r >>> 1).toNat = r.toNat / 2 := by
  simp [UInt32.toNat_shiftRight, Nat.shiftRight_eq_div_pow]

theorem lowBit_iff (r : UInt32) : r &&& 1 = 1 ↔ r.toNat % 2 = 1 := by
  rw [← UInt32.toNat_inj, UInt32.toNat_and]
  simp [Nat.and_one_is_mod]

/-- The polynomial has the highest bit, which no difference of two halves has. -/
theorem half_xor_ne_half (r r' : UInt32) : (r >>> 1) ^^^ (0xEDB88320 : UInt32) ≠ r' >>> 1 := by
  intro same
  have difference : (r >>> 1) ^^^ (r' >>> 1) = 0xEDB88320 := by
    rw [← same, ← UInt32.xor_assoc, UInt32.xor_self, UInt32.zero_xor]
  have small : ((r >>> 1) ^^^ (r' >>> 1)).toNat < 2 ^ 31 := by
    rw [UInt32.toNat_xor]
    apply Nat.xor_lt_two_pow
    · rw [toNat_half]
      have := r.toNat_lt
      omega
    · rw [toNat_half]
      have := r'.toNat_lt
      omega
  rw [difference] at small
  exact absurd small (by decide)

theorem crcShift_injective {r r' : UInt32} (same : crcShift r = crcShift r') : r = r' := by
  -- Whether the polynomial was subtracted shows in the result, so both had the same low bit.
  have halves : r >>> 1 = r' >>> 1 ∧ (r &&& 1 = 1 ↔ r' &&& 1 = 1) := by
    unfold crcShift at same
    split at same
    case isTrue odd =>
      split at same
      case isTrue odd' => exact ⟨UInt32.xor_left_inj _ |>.mp same, by simp [odd, odd']⟩
      case isFalse => exact absurd same (half_xor_ne_half r r')
    case isFalse even =>
      split at same
      case isTrue => exact absurd same.symm (half_xor_ne_half r' r)
      case isFalse even' => exact ⟨same, by simp [even, even']⟩
  obtain ⟨half, low⟩ := halves
  rw [← UInt32.toNat_inj, toNat_half, toNat_half] at half
  rw [lowBit_iff, lowBit_iff] at low
  apply UInt32.toNat_inj.mp
  omega

/-- Eight shifts keep different remainders apart. -/
theorem eq_of_crcByte {r r' : UInt32} {b b' : UInt8} (same : crcByte r b = crcByte r' b') :
    r ^^^ b.toUInt32 = r' ^^^ b'.toUInt32 := by
  unfold crcByte at same
  iterate 8 replace same := crcShift_injective same
  exact same

/-! ## The rotating sum -/

/-- A rotation by one bit and the addition of a byte, in numbers. -/
theorem toNat_bsdByte (sum : UInt16) (b : UInt8) :
    (bsdByte sum b).toNat = (sum.toNat / 2 + sum.toNat % 2 * 32768 + b.toNat) % 65536 := by
  have carried : ((sum &&& 1) <<< 15).toNat = sum.toNat % 2 * 32768 := by
    rw [UInt16.toNat_shiftLeft, UInt16.toNat_and]
    simp [Nat.and_one_is_mod, Nat.shiftLeft_eq]
    omega
  have half : (sum >>> 1).toNat = sum.toNat / 2 := by
    simp [UInt16.toNat_shiftRight, Nat.shiftRight_eq_div_pow]
  rw [bsdByte, UInt16.toNat_add, UInt16.toNat_add, carried, half]
  simp

theorem bsdByte_sum_injective {sum sum' : UInt16} {b : UInt8}
    (same : bsdByte sum b = bsdByte sum' b) : sum = sum' := by
  rw [← UInt16.toNat_inj, toNat_bsdByte, toNat_bsdByte] at same
  have := sum.toNat_lt
  have := sum'.toNat_lt
  have rotated : sum.toNat / 2 + sum.toNat % 2 * 32768 =
      sum'.toNat / 2 + sum'.toNat % 2 * 32768 := by
    omega
  exact UInt16.toNat_inj.mp (by omega)

theorem bsdByte_byte_injective {sum : UInt16} {b b' : UInt8}
    (same : bsdByte sum b = bsdByte sum b') : b = b' := by
  rw [← UInt16.toNat_inj, toNat_bsdByte, toNat_bsdByte] at same
  have := b.toNat_lt
  have := b'.toNat_lt
  exact UInt8.toNat_inj.mp (by omega)

/-! ## The sums of Adler-32 -/

def SumsReduced (sums : Nat × Nat) : Prop := sums.1 < adlerModulus ∧ sums.2 < adlerModulus

theorem adlerByte_sums_injective {sums sums' : Nat × Nat} {b : UInt8} (reduced : SumsReduced sums)
    (reduced' : SumsReduced sums') (same : adlerByte sums b = adlerByte sums' b) :
    sums = sums' := by
  obtain ⟨low, high⟩ := sums
  obtain ⟨low', high'⟩ := sums'
  simp only [adlerByte, SumsReduced, adlerModulus, Prod.mk.injEq] at *
  have lows : low = low' := by omega
  have highs : high = high' := by omega
  exact ⟨lows, highs⟩

theorem adlerByte_byte_injective {sums : Nat × Nat} {b b' : UInt8}
    (same : adlerByte sums b = adlerByte sums b') : b = b' := by
  have lows := congrArg Prod.fst same
  simp only [adlerByte, adlerModulus] at lows
  have := b.toNat_lt
  have := b'.toNat_lt
  exact UInt8.toNat_inj.mp (by omega)

/-! ## All three -/

/-- A register that a run can hold. -/
def Reduced : (a : Algorithm) → a.Register → Prop
  | .crc32, _ => True
  | .adler32, sums => SumsReduced sums
  | .bsd, _ => True

variable {a : Algorithm} {r r' : a.Register} {b b' : UInt8}

theorem reduced_start (a : Algorithm) : a.Reduced a.start := by
  cases a with
  | crc32 => trivial
  | adler32 => exact ⟨by decide, by decide⟩
  | bsd => trivial

theorem reduced_step (a : Algorithm) (r : a.Register) (b : UInt8) : a.Reduced (a.step r b) := by
  cases a with
  | crc32 => trivial
  | adler32 => exact ⟨Nat.mod_lt _ (by decide), Nat.mod_lt _ (by decide)⟩
  | bsd => trivial

/-- The same byte keeps different registers apart. -/
theorem step_register_injective (reduced : a.Reduced r) (reduced' : a.Reduced r')
    (same : a.step r b = a.step r' b) : r = r' := by
  cases a with
  | crc32 => exact (UInt32.xor_left_inj _).mp (eq_of_crcByte same)
  | adler32 => exact adlerByte_sums_injective reduced reduced' same
  | bsd => exact bsdByte_sum_injective same

/-- One register goes to different places under different bytes. -/
theorem step_byte_injective (same : a.step r b = a.step r b') : b = b' := by
  cases a with
  | crc32 =>
      have words := (UInt32.xor_right_inj _).mp (eq_of_crcByte same)
      exact UInt8.toNat_inj.mp (by simpa using congrArg UInt32.toNat words)
  | adler32 => exact adlerByte_byte_injective same
  | bsd => exact bsdByte_byte_injective same

/-- A register can be told from its checksum. -/
theorem value_injective (reduced : a.Reduced r) (reduced' : a.Reduced r')
    (same : a.value r = a.value r') : r = r' := by
  cases a with
  | crc32 => exact (UInt32.xor_left_inj _).mp (UInt32.toNat_inj.mp same)
  | adler32 =>
      obtain ⟨low, high⟩ := r
      obtain ⟨low', high'⟩ := r'
      simp only [value, Reduced, SumsReduced, adlerModulus] at *
      have lows : low = low' := by omega
      have highs : high = high' := by omega
      rw [lows, highs]
  | bsd => exact UInt16.toNat_inj.mp same

/-- Checksums fit in 32 bits. -/
theorem value_lt (reduced : a.Reduced r) : a.value r < 2 ^ 32 := by
  cases a with
  | crc32 => exact UInt32.toNat_lt _
  | adler32 =>
      obtain ⟨low, high⟩ := r
      simp only [value, Reduced, SumsReduced, adlerModulus] at *
      omega
  | bsd => exact Nat.lt_trans (UInt16.toNat_lt r) (by decide)

/-! ## Runs -/

theorem reduced_foldl (reduced : a.Reduced r) (data : Bytes) :
    a.Reduced (data.foldl a.step r) := by
  induction data generalizing r with
  | nil => exact reduced
  | cons b data ih => exact ih (a.reduced_step r b)

theorem foldl_step_injective (reduced : a.Reduced r) (reduced' : a.Reduced r') (data : Bytes)
    (same : data.foldl a.step r = data.foldl a.step r') : r = r' := by
  induction data generalizing r r' with
  | nil => exact same
  | cons b data ih =>
      have next := ih (a.reduced_step r b) (a.reduced_step r' b) same
      exact step_register_injective reduced reduced' next

theorem checksum_eq (a : Algorithm) (data : Bytes) :
    a.checksum data = a.value (data.foldl a.step a.start) := rfl

theorem checksum_lt (a : Algorithm) (data : Bytes) : a.checksum data < 2 ^ 32 :=
  value_lt (reduced_foldl a.reduced_start data)

/-- Bytes that differ in one place have different checksums. -/
theorem eq_of_checksum_eq {front rest : Bytes}
    (same : a.checksum (front ++ b :: rest) = a.checksum (front ++ b' :: rest)) : b = b' := by
  simp only [checksum_eq, List.foldl_append, List.foldl_cons] at same
  have registers := value_injective (reduced_foldl (a.reduced_step _ b) rest)
    (reduced_foldl (a.reduced_step _ b') rest) same
  have steps := foldl_step_injective (a.reduced_step _ b) (a.reduced_step _ b') rest registers
  exact step_byte_injective steps

theorem checksum_set_ne (a : Algorithm) {data : Bytes} {i : Nat} (inside : i < data.length)
    (differs : data[i] ≠ b) : a.checksum (data.set i b) ≠ a.checksum data := by
  intro same
  have whole : data = data.take i ++ data[i] :: data.drop (i + 1) := by
    rw [List.getElem_cons_drop, List.take_append_drop]
  rw [List.set_eq_take_append_cons_drop, if_pos inside] at same
  conv at same => rhs; rw [whole]
  exact differs (eq_of_checksum_eq same).symm

end Bytewise.Algorithm

import Bytewise.Proofs.Checksum.Digest
import Bytewise.Proofs.Checksum.Division
import Bytewise.Value.Basic
import Mathlib

/-!
# Checksums do not depend on chunks

What a checksum is by definition is said of all the data at once (`Algorithm.prescribed`): the CRC
is the remainder of a division, the two sums of Adler-32 are a sum and a weighted sum, and the
rotating sum is a fold over 16-bit words. The running sum takes the data in by chunks, and arrives
at the same number for every way of cutting.

A running sum can also be kept as the checksum of what was taken in so far. A register can be
recovered from its checksum, so the checksum can be extended by the next chunk
(`Algorithm.extend_checksum`).
-/

namespace Bytewise

namespace Algorithm

/-! ## Adler-32 -/

/-- The first sum of Adler-32: one and all the bytes. -/
def adlerSum (data : Bytes) : Nat := 1 + ∑ i : Fin data.length, (data.get i).toNat

/-- The second sum of Adler-32: every byte counts as often as there are bytes from it to the end. -/
def adlerWeightedSum (data : Bytes) : Nat :=
  data.length + ∑ i : Fin data.length, (data.length - i) * (data.get i).toNat

/-- What data adds to two sums that stand anywhere. -/
theorem foldl_adlerByte (low high : Nat) (data : Bytes) :
    let sums := data.foldl adlerByte (low % adlerModulus, high % adlerModulus)
    sums.1 = (low + ∑ i : Fin data.length, (data.get i).toNat) % adlerModulus ∧
      sums.2 = (high + data.length * low +
        ∑ i : Fin data.length, (data.length - i) * (data.get i).toNat) % adlerModulus := by
  induction data generalizing low high with
  | nil => simp
  | cons b rest ih =>
      -- The byte joins both sums, and what follows adds the first sum once for each byte.
      have taken : adlerByte (low % adlerModulus, high % adlerModulus) b =
          ((low + b.toNat) % adlerModulus, (high + (low + b.toNat)) % adlerModulus) := by
        simp [adlerByte, Nat.add_mod]
      obtain ⟨first, second⟩ := ih (low + b.toNat) (high + (low + b.toNat))
      rw [List.foldl_cons, taken]
      refine ⟨first.trans ?_, second.trans ?_⟩
      · simp [Fin.sum_univ_succ, Nat.add_assoc]
      · congr 1
        simp [Fin.sum_univ_succ]
        ring

/-! ## The definitions -/

noncomputable def prescribed : Algorithm → Bytes → Nat
  | .crc32, data => crcByDivision data
  | .adler32, data =>
    (adlerWeightedSum data % adlerModulus) <<< 16 ||| (adlerSum data % adlerModulus)
  | .bsd, data =>
    (data.foldl (fun sum b => sum.rotateRight 1 + b.toBitVec.setWidth 16) (0#16)).toNat

/-- Checksums lie below this number. -/
def bound : Algorithm → Nat
  | .bsd => 2 ^ 16
  | _ => 2 ^ 32

/-- The two parts of a rotation do not overlap, so they can be added. -/
theorem rotateRight_eq_add (x : BitVec 16) :
    x.rotateRight 1 = x >>> 1 + (x &&& 1#16) <<< 15 := by
  have low : (x &&& 1#16) <<< 15 = x <<< 15 := by
    ext i inside
    simp only [BitVec.getElem_shiftLeft]
    grind
  have apart : (x >>> 1) &&& (x <<< 15) = 0#16 := by
    ext i inside
    simp only [BitVec.getElem_and, BitVec.getElem_ushiftRight, BitVec.getElem_shiftLeft]
    grind
  rw [low, BitVec.add_eq_or_of_and_eq_zero _ _ apart]
  rfl

theorem toBitVec_foldl_bsdByte (sum : UInt16) (data : Bytes) :
    (data.foldl bsdByte sum).toBitVec =
      data.foldl (fun sum b => sum.rotateRight 1 + b.toBitVec.setWidth 16) sum.toBitVec := by
  induction data generalizing sum with
  | nil => rfl
  | cons b rest ih =>
      rw [List.foldl_cons, List.foldl_cons, ih, rotateRight_eq_add]
      rfl

theorem checksum_eq_prescribed (a : Algorithm) (data : Bytes) :
    a.checksum data = a.prescribed data := by
  cases a with
  | crc32 => exact crc32_checksum_eq_crcByDivision data
  | adler32 =>
      obtain ⟨first, second⟩ := foldl_adlerByte 1 0 data
      rw [Nat.mul_one, Nat.zero_add] at second
      have low : adlerSum data % adlerModulus < 2 ^ 16 :=
        Nat.lt_trans (Nat.mod_lt _ (by decide)) (by decide)
      have packed : checksum .adler32 data =
          adlerWeightedSum data % adlerModulus * 2 ^ 16 + adlerSum data % adlerModulus :=
        congrArg₂ (fun low high => high * 2 ^ 16 + low) first second
      rw [packed, prescribed, ← Nat.shiftLeft_add_eq_or_of_lt low, Nat.shiftLeft_eq]
  | bsd => exact congrArg BitVec.toNat (toBitVec_foldl_bsdByte 0 data)

theorem checksum_lt_bound (a : Algorithm) (data : Bytes) : a.checksum data < a.bound := by
  cases a with
  | crc32 => exact checksum_lt .crc32 data
  | adler32 => exact checksum_lt .adler32 data
  | bsd => exact UInt16.toNat_lt _

/-! ## Going on from a checksum -/

/-- The register that has a given checksum. -/
def resume : (a : Algorithm) → Nat → a.Register
  | .crc32, v => (UInt32.ofNat v ^^^ 0xFFFFFFFF : UInt32)
  | .adler32, v => ((v % 0x10000, v / 0x10000) : Nat × Nat)
  | .bsd, v => UInt16.ofNat v

/-- The checksum of data with a chunk behind it, from that of the data alone. -/
def extend (a : Algorithm) (v : Nat) (chunk : Bytes) : Nat :=
  a.value (chunk.foldl a.step (a.resume v))

theorem resume_value {a : Algorithm} {r : a.Register} (reduced : a.Reduced r) :
    a.resume (a.value r) = r := by
  cases a with
  | crc32 =>
      have inverted (word : UInt32) :
          UInt32.ofNat (word ^^^ 0xFFFFFFFF).toNat ^^^ 0xFFFFFFFF = word := by
        rw [UInt32.ofNat_toNat, UInt32.xor_assoc, UInt32.xor_self, UInt32.xor_zero]
      exact inverted r
  | adler32 =>
      obtain ⟨low, high⟩ := r
      simp only [Reduced, SumsReduced, adlerModulus] at reduced
      have lows : (high * 0x10000 + low) % 0x10000 = low := by omega
      have highs : (high * 0x10000 + low) / 0x10000 = high := by omega
      exact Prod.ext lows highs
  | bsd => exact UInt16.ofNat_toNat

/-- Checksums are carried from chunk to chunk. -/
theorem extend_checksum (a : Algorithm) (data chunk : Bytes) :
    a.extend (a.checksum data) chunk = a.checksum (data ++ chunk) := by
  rw [extend, checksum_eq, checksum_eq, resume_value (reduced_foldl a.reduced_start data),
    List.foldl_append]

theorem foldl_extend (a : Algorithm) (data : Bytes) (chunks : List Bytes) :
    chunks.foldl a.extend (a.checksum data) = a.checksum (data ++ chunks.flatten) := by
  induction chunks generalizing data with
  | nil => simp
  | cons chunk chunks ih =>
      rw [List.foldl_cons, extend_checksum, ih, List.flatten_cons, List.append_assoc]

end Algorithm

/-! ## Streams -/

/-- A checksum is what the definition of its algorithm prescribes for all the data, and lies below
the algorithm's bound. It does not matter how the data is cut into chunks, whether a register is
carried from chunk to chunk or the checksum so far. Nor does it matter how a stream splits it, or in
what size it is asked for: where reads get to the end the digest is that of all the data, and where
one fails before the end there is no digest, and the failure is reported under the given name. -/
theorem checksum_independent_of_chunks (a : Algorithm) (data : Bytes) :
    a.checksum data = a.prescribed data ∧ a.checksum data < a.bound ∧
    (∀ chunks : List Bytes, chunks.flatten = data →
      (chunks.foldl RunningSum.feed (RunningSum.start a)).value = a.checksum data ∧
      (chunks.foldl RunningSum.feed (RunningSum.start a)).size = data.length ∧
      chunks.foldl a.extend (a.checksum []) = a.checksum data) ∧
    ∀ (s : Stream) (name : Text) (chunk : Value), s.ahead = data → s.NeverStalls →
      (chunk = .null ∨ ∃ n : Int, n ≠ 0 ∧ chunk = .int n) → ¬ s.Refuses (.ofValue chunk) →
      (s.Lasts → (Digest.ofStream a name (.ofValue chunk) s).1 =
        .ok ⟨a, a.checksum data, data.length, name⟩) ∧
      ∀ limit cause, s.failure = some (limit, cause) → limit ≤ s.position + data.length →
        (Digest.ofStream a name (.ofValue chunk) s).1 = .error (.unreadable name cause.reason) := by
  refine ⟨a.checksum_eq_prescribed data, a.checksum_lt_bound data, ?_, ?_⟩
  · rintro chunks rfl
    refine ⟨?_, ?_, a.foldl_extend [] chunks⟩
    · rw [RunningSum.foldl_feed]
      rfl
    · rw [RunningSum.foldl_feed]
      exact Nat.zero_add _
  · rintro s name chunk rfl never asks accepts
    have takes : s.Takes (.ofValue chunk) := by
      obtain rfl | ⟨n, nonzero, rfl⟩ := asks
      · trivial
      · exact Stream.takes_ofInt nonzero accepts
    refine ⟨fun lasts => Digest.ofStream_of_readsOut a name ⟨takes, never, lasts⟩, ?_⟩
    intro limit cause fails early
    exact Digest.ofStream_of_fault a name
      (Stream.fault_readAll_of_failure takes never fails early)

/-- Three bytes, read at most one, two and three at a time from the places where a read can begin,
all of them asked for at once: the digest is that of the three, unless the third cannot be read. -/
theorem checksum_independent_of_chunks_shortReads :
    let whole : Stream := { whole := [0x61, 0x62, 0x63], allowance := fun p => some (p + 1) }
    let broken : Stream := { whole with failure := some (2, .inputOutput) }
    whole.NeverStalls ∧ whole.Lasts ∧
      (Digest.ofStream .adler32 "f" (.ofValue (.int (-1))) whole).1 =
        .ok ⟨.adler32, 0x024D0127, 3, "f"⟩ ∧
      (Digest.ofStream .adler32 "f" (.ofValue (.int (-1))) broken).1 =
        .error (.unreadable "f" "Input/output error") := by
  intro whole broken
  have never : whole.NeverStalls := fun position => by simp [whole]
  have lasts : whole.Lasts := nofun
  have accepts (s : Stream) : ¬ s.Refuses (.ofValue (.int (-1))) := nofun
  obtain ⟨-, -, -, streams⟩ := checksum_independent_of_chunks .adler32 [0x61, 0x62, 0x63]
  have asks : Value.int (-1) = .null ∨ ∃ n : Int, n ≠ 0 ∧ Value.int (-1) = .int n :=
    .inr ⟨-1, by decide, rfl⟩
  refine ⟨never, lasts, (streams whole "f" (.int (-1)) rfl never asks (accepts _)).1 lasts, ?_⟩
  exact (streams broken "f" (.int (-1)) rfl never asks (accepts _)).2 2 .inputOutput rfl (by decide)

end Bytewise

import Bytewise.Proofs.Checksum.Register
import Bytewise.Proofs.Checksum.Verification

/-!
# Corruption of one byte

Each algorithm takes different bytes to different registers, and different registers to different
registers under the bytes that follow; so a change of one byte is carried through to the checksum,
however many bytes come behind it (`Algorithm.checksum_set_ne`). This holds of bytes in memory, of
bytes taken in by chunks, and of a file that a listing makes a claim about.
-/

namespace Bytewise

/-- Bytes taken in by chunks have the checksum of all of them. -/
theorem RunningSum.value_foldl_feed (a : Algorithm) (pieces : List Bytes) :
    (pieces.foldl feed (start a)).value = a.checksum pieces.flatten := by
  rw [foldl_feed, Algorithm.checksum]

namespace CheckLine

variable {t : FileTree} {a : Algorithm} {size : ReadSize} {base : Option Path} {c : CheckLine}
  {data : Bytes}

/-- A claim that is wrong about a file that can be opened fails. -/
theorem entry_of_wrong (opened : t.openRaw (c.target base).toText = .ok data)
    (wrong : a.checksum data ≠ c.expected) :
    (c.entry t a base).ok = false ∧
      (c.entry t a base).line = c.name ++ Text.ofString ": FAILED" := by
  have fails : (c.entry t a base).ok = false := by
    simpa [entry, CheckEntry.ok, found, opened] using wrong
  have read : (c.entry t a base).found = .ok (a.checksum data) := by simp [entry, found, opened]
  refine ⟨fails, ?_⟩
  rw [CheckEntry.line_of_found read, fails]
  rfl

end CheckLine

/-- Bytes that differ in one place differ in their checksum. So no change of one byte goes
unnoticed, neither where the bytes are taken in by chunks nor where a listing is verified: the claim
about a file that was changed so is reported as failed, wherever it stands in the listing. -/
theorem corruption_detected (a : Algorithm) {data : Bytes} {i : Nat} (inside : i < data.length)
    {b : UInt8} (differs : data[i] ≠ b) :
    a.checksum (data.set i b) ≠ a.checksum data ∧
    (∀ pieces : List Bytes, pieces.flatten = data.set i b →
      (pieces.foldl RunningSum.feed (RunningSum.start a)).value ≠ a.checksum data) ∧
    ∀ (t : FileTree) (size : ReadSize) (base : Option Path) (before after : List Text)
      (line : Text) (c : CheckLine), size.Reads →
      (verify t (.ok a) size base before).stopped = none →
      CheckLine.parse line = .ok c → c.expected = a.checksum data →
      t.openRaw (c.target base).toText = .ok (data.set i b) →
      ∃ e rest, (verify t (.ok a) size base (before ++ line :: after)).entries =
          (verify t (.ok a) size base before).entries ++ e :: rest ∧
        e.ok = false ∧ e.line = c.name ++ Text.ofString ": FAILED" := by
  have changed := a.checksum_set_ne inside differs
  refine ⟨changed, ?_, ?_⟩
  · intro pieces whole
    rwa [RunningSum.value_foldl_feed, whole]
  · intro t size base before after line c reads returns parsed listed opened
    have going := CheckLine.not_stops_of_opened reads opened
    obtain ⟨rest, entries⟩ := exists_verify_entries_eq (.inl reads) returns parsed going after
    exact ⟨c.entry t a base, rest, entries,
      CheckLine.entry_of_wrong opened (by rwa [listed])⟩

/-- The letter `x` turned into `y`: the checksums differ, and the claim about the changed file fails
between two other lines. -/
theorem corruption_detected_letter :
    let t : FileTree := [("a", .file {} [0x79])]
    0 < [(0x78 : UInt8)].length ∧ ([0x78] : Bytes)[0] ≠ 0x79 ∧
      Algorithm.checksum .adler32 [0x79] ≠ Algorithm.checksum .adler32 [0x78] ∧
      ∃ e rest, (verify t (.ok .adler32) (.atMost 1) none ["junk", "00790079  a", ""]).entries =
          (verify t (.ok .adler32) (.atMost 1) none ["junk"]).entries ++ e :: rest ∧
        e.ok = false ∧ e.line = Text.ofString "a: FAILED" := by
  have inside : 0 < [(0x78 : UInt8)].length := by decide
  have differs : ([0x78] : Bytes)[0] ≠ 0x79 := by simp
  intro t
  obtain ⟨changed, -, reported⟩ := corruption_detected .adler32 inside differs
  refine ⟨inside, differs, changed, ?_⟩
  exact reported t (.atMost 1) none ["junk"] [""] "00790079  a" ⟨0x00790079, "a"⟩
    Nat.one_pos rfl rfl rfl (by cbv)

end Bytewise

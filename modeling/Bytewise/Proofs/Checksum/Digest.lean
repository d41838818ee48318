import Bytewise.Checksum.Digest
import Bytewise.Proofs.FileTree.Names
import Bytewise.Proofs.Stream

/-!
# What a digest comes to

A running sum over pieces is the sum over all of them at once, so the digest of a stream that
delivers is the checksum of what was ahead, whatever the pieces were. For a file there are four
cases: its content is read; the system refuses it; its name cannot be handed to the system; or the
size of a read is one that a file refuses.
-/

namespace Bytewise

/-- Feeding pieces one by one feeds all of them. -/
theorem RunningSum.foldl_feed {a : Algorithm} (sum : RunningSum a) (pieces : List Bytes) :
    pieces.foldl feed sum = sum.feed pieces.flatten := by
  induction pieces generalizing sum with
  | nil => simp [feed]
  | cons piece pieces ih =>
      rw [List.foldl_cons, ih]
      simp [feed, Nat.add_assoc]

namespace Digest

variable {a : Algorithm} {t : FileTree} {name : Text} {size : ReadSize} {data : Bytes} {s : Stream}

/-- The digest of a stream that is read out is that of all its data, whatever the pieces were. -/
theorem ofStream_of_readsOut (a : Algorithm) (name : Text) (out : s.ReadsOut size) :
    (ofStream a name size s).1 = .ok ⟨a, a.checksum s.ahead, s.ahead.length, name⟩ := by
  simp only [ofStream, out.fault_readAll, RunningSum.foldl_feed, out.flatten_readAll]
  simp [RunningSum.feed, RunningSum.start, Algorithm.checksum, RunningSum.value]

theorem ofStream_eq (a : Algorithm) (name : Text) (delivers : s.Delivers) (reads : size.Reads) :
    (ofStream a name size s).1 = .ok ⟨a, a.checksum s.ahead, s.ahead.length, name⟩ :=
  ofStream_of_readsOut a name (delivers.readsOut (s.takes_of_reads reads))

/-- A read that fails before the end leaves no digest. -/
theorem ofStream_of_fault (a : Algorithm) (name : Text) {cause : SystemFault}
    (failed : (s.readAll size).fault? = some (.system cause)) :
    (ofStream a name size s).1 = .error (.unreadable name cause.reason) := by
  simp only [ofStream, failed]
  rfl

/-- A size that the stream refuses leaves no digest either. -/
theorem ofStream_of_refusal (a : Algorithm) (name : Text) {fault : Fault}
    (refused : s.refusal? size = some fault) : (ofStream a name size s).1 = .error fault := by
  simp only [ofStream, Stream.fault_readAll_of_refusal refused,
    Stream.asUnreadable_of_refusal refused]

/-! ## Files -/

theorem ofFile_eq_ofStream (a : Algorithm) (size : ReadSize) (opened : t.openRaw name = .ok data) :
    ofFile t (.ok a) name size = (ofStream a name size (.ofFile data)).1 := by
  rw [ofFile, opened]
  rfl

theorem ofFile_of_unopened (algorithm : Except Fault Algorithm) (size : ReadSize) {fault : Fault}
    (refused : t.openRaw name = .error fault) :
    ofFile t algorithm name size = .error (fault.asUnreadable name) := by
  rw [ofFile, refused]
  rfl

/-- The digest of a file that can be read is that of its whole content. -/
theorem ofFile_of_opened (a : Algorithm) (reads : size.Reads) (opened : t.openRaw name = .ok data) :
    ofFile t (.ok a) name size = .ok ⟨a, a.checksum data, data.length, name⟩ := by
  rw [ofFile_eq_ofStream a size opened]
  exact ofStream_eq a name (Stream.delivers_ofFile data) reads

/-- A read of no bytes is taken for the end of the file, so nothing of it is seen. -/
theorem ofFile_of_zero (a : Algorithm) (opened : t.openRaw name = .ok data) :
    ofFile t (.ok a) name (.atMost 0) = .ok ⟨a, a.checksum [], 0, name⟩ := by
  obtain ⟨fault, pieces⟩ := Stream.readAll_zero (s := .ofFile data) rfl
  rw [ofFile_eq_ofStream a _ opened]
  simp only [ofStream, fault, pieces]
  rfl

theorem ofFile_of_refusal (a : Algorithm) (opened : t.openRaw name = .ok data) {fault : Fault}
    (refused : (Stream.ofFile data).refusal? size = some fault) :
    ofFile t (.ok a) name size = .error fault := by
  rw [ofFile_eq_ofStream a size opened]
  exact ofStream_of_refusal a name refused

theorem ofFile_of_refused (a : Algorithm) (size : ReadSize) {cause : SystemFault}
    (refused : t.openRaw name = .error (.system cause)) :
    ofFile t (.ok a) name size = .error (.unreadable name cause.reason) :=
  ofFile_of_unopened _ size refused

theorem ofFile_of_nul (t : FileTree) (a : Algorithm) (size : ReadSize)
    (nul : .char '\x00' ∈ name) : ofFile t (.ok a) name size = .error .nulInName :=
  ofFile_of_unopened _ size (FileTree.openRaw_of_nul nul)

end Digest

end Bytewise

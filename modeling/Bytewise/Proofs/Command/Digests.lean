import Bytewise.Proofs.Command.Checksum

/-!
# Digests in chunks of any size

What the checksum program prints for files does not depend on the chunk size, as long as that is a
size that reads (`ChecksumProgram.launch_congr`): minus one, and every positive number that the
system can take. A chunk size of zero takes the beginning of a file for its end, so that the
checksum of nothing is printed, and a size that a file does not take ends the program at the first
file that can be read (`ChecksumProgram.AsksFiles.writes_launch`,
`ChecksumProgram.AsksFiles.writes_launch_of_unfit`).
-/

namespace Bytewise

/-! ## Digests of files -/

/-- Sizes that read come to the same digest of a file. -/
theorem Digest.ofFile_congr {size size' : ReadSize} (reads : size.Reads) (reads' : size'.Reads)
    (t : FileTree) (a : Algorithm) (name : Text) :
    ofFile t (.ok a) name size' = ofFile t (.ok a) name size := by
  cases opened : t.openRaw name with
  | ok data => rw [ofFile_of_opened a reads opened, ofFile_of_opened a reads' opened]
  | error fault => rw [ofFile_of_unopened _ size opened, ofFile_of_unopened _ size' opened]

theorem verify_congr {t : FileTree} {algorithm : Except Fault Algorithm} {size size' : ReadSize}
    (same : ∀ name, Digest.ofFile t algorithm name size' = Digest.ofFile t algorithm name size)
    (base : Option Path) (lines : List Text) :
    verify t algorithm size' base lines = verify t algorithm size base lines := by
  have checked (number : Nat) (v : Verification) :
      Verification.checkLines t algorithm size' base number lines v =
        Verification.checkLines t algorithm size base number lines v := by
    induction lines generalizing number v with
    | nil => rfl
    | cons line rest ih => simp only [Verification.checkLines, Verification.checkLine, same, ih]
  rw [verify, verify, checked]

/-- What is seen of a file that is read in chunks of a size. A read of no bytes is taken for the
end, so with size zero it is nothing. -/
def seenInChunks (chunk : Int) (data : Bytes) : Bytes := if chunk = 0 then [] else data

theorem Digest.ofFile_ofInt {t : FileTree} {name : Text} {data : Bytes} {chunk : Int}
    (a : Algorithm) (fits : FileSize chunk) (opened : t.openRaw name = .ok data) :
    ofFile t (.ok a) name (.ofInt chunk) =
      .ok ⟨a, a.checksum (seenInChunks chunk data), (seenInChunks chunk data).length, name⟩ := by
  by_cases zero : chunk = 0
  · subst zero
    exact ofFile_of_zero a opened
  · rw [seenInChunks, if_neg zero]
    exact ofFile_of_opened a (ReadSize.reads_ofInt_of_fileSize fits zero) opened

theorem Digest.ofFile_of_unfit {t : FileTree} {name : Text} {data : Bytes} {chunk : Int}
    (a : Algorithm) (unfit : ¬ FileSize chunk) (opened : t.openRaw name = .ok data) :
    ofFile t (.ok a) name (.ofInt chunk) = .error (sizeFault chunk) :=
  ofFile_of_refusal a opened (by rw [Stream.refusal?_ofFile, if_neg unfit])

namespace ChecksumProgram

open Run

variable {around around' : Surroundings} {args : List Text} {a : Arguments (OptionKey Key)}
  {settings settings' : Settings} {algorithm : Algorithm}

/-! ## Chunk sizes that read -/

/-- A command line that does not have standard input digested. -/
def OfFiles (a : Arguments (OptionKey Key)) : Prop :=
  a.value? (.own .verify) ≠ none ∨ a.operands ≠ [] ∧ Text.ofString "-" ∉ a.operands

/-- Chunk sizes that read, of whatever settings, make no difference to a run of the program. -/
theorem launch_congr (samePackages : around'.packages = around.packages)
    (sameTree : around'.tree = around.tree) (loads : Loads rules around args a settings)
    (loads' : Loads rules around' args a settings')
    (sameLog : ∀ verbose,
      LogSettings.ofSettings settings' verbose = LogSettings.ofSettings settings verbose)
    (sameAlgorithm : settings'.get .algorithm = settings.get .algorithm) (ofFiles : OfFiles a)
    (reads : (ReadSize.ofValue (settings.get .chunkSize)).Reads)
    (reads' : (ReadSize.ofValue (settings'.get .chunkSize)).Reads) :
    launch around' none args = launch around none args := by
  have same (algorithm : Algorithm) (name : Text) :=
    Digest.ofFile_congr reads reads' around.tree algorithm name
  have digests (algorithm : Algorithm) (quiet : Bool) (name : Text)
      (notInput : name ≠ Text.ofString "-") :
      digestOperand around.tree.supply algorithm (.ofValue (settings'.get .chunkSize)) quiet name =
        digestOperand around.tree.supply algorithm (.ofValue (settings.get .chunkSize)) quiet
          name := by
    rw [digestOperand_supply quiet notInput, digestOperand_supply quiet notInput, same]
  have verifies (algorithm : Algorithm) (lines : List Text) :
      verifyListing around.tree algorithm (.ofValue (settings'.get .chunkSize)) lines =
        verifyListing around.tree algorithm (.ofValue (settings.get .chunkSize)) lines := by
    rw [verifyListing, verifyListing, verify_congr (same algorithm)]
  have chosen : chooseAlgorithm a settings' = chooseAlgorithm a settings := by
    rw [chooseAlgorithm, chooseAlgorithm, configured, configured, sameAlgorithm]
  rw [launch, launch, launchOn, launchOn, sameTree]
  apply start_bind_congr program samePackages sameTree loads loads' sameLog
  dsimp only
  rw [chosen]
  refine congrArg (chooseAlgorithm a settings >>= ·) (funext fun algorithm => ?_)
  simp only [work, sameTree]
  obtain asked | ⟨inhabited, notInput⟩ := ofFiles
  · cases given : a.value? (.own .verify) with
    | none => exact (asked given).elim
    | some name => simp only [verifies]
  · have operands : a.operands.isEmpty = false := by simpa using inhabited
    have each : ∀ name ∈ a.operands, _ := fun name member =>
      digests algorithm (a.has (.own .quiet)) name fun dash => notInput (dash ▸ member)
    simp only [operands, verifies, printDigests, mapM_congr each, Bool.false_eq_true, ↓reduceIte]

/-! ## Any chunk size -/

def requestedUnder (a : Arguments (OptionKey Key)) (settings : Settings) : Option Algorithm :=
  (a.lastOf algorithmOf).or <| match settings.get .algorithm with
    | .text name => (Algorithm.named (name.map Conversion.lowerSymbol)).toOption
    | _ => none

theorem writes_chooseAlgorithm_of_requested
    (requested : requestedUnder a settings = some algorithm) :
    Writes (chooseAlgorithm a settings) (.ok algorithm) [] := by
  rw [chooseAlgorithm]
  rw [requestedUnder] at requested
  cases given : a.lastOf algorithmOf with
  | some flagged =>
      rw [given, Option.some_or] at requested
      cases requested
      exact writes_pure algorithm
  | none =>
      rw [given, Option.none_or] at requested
      dsimp only
      rw [configured]
      cases named : settings.get .algorithm with
      | text name =>
          rw [named] at requested
          dsimp only at requested ⊢
          cases named : Algorithm.named (name.map Conversion.lowerSymbol) with
          | ok known =>
              rw [named] at requested
              cases requested
              exact writes_pure algorithm
          | error fault =>
              rw [named] at requested
              cases requested
      | _ =>
          rw [named] at requested
          cases requested

/-- A command line that asks for the digests of files, by names that the system can be asked for
and, as far as they are to be printed, that can be. -/
structure AsksFiles (around : Surroundings) (args : List Text) (a : Arguments (OptionKey Key))
    (settings : Settings) (algorithm : Algorithm) : Prop
    extends Prepared rules around args a settings where
  requested : requestedUnder a settings = some algorithm
  no_verify : a.value? (.own .verify) = none
  inhabited : a.operands ≠ []
  not_input : Text.ofString "-" ∉ a.operands
  no_nul : ∀ name ∈ a.operands, .char '\x00' ∉ name
  printable : ∀ name ∈ a.operands, ∀ data, around.tree.openRaw name = .ok data →
    a.has (.own .quiet) = false → name.Printable

theorem AsksFiles.ne_input (asks : AsksFiles around args a settings algorithm) {name : Text}
    (member : name ∈ a.operands) : name ≠ Text.ofString "-" := by
  rintro rfl
  exact asks.not_input member

/-- An operand that can be read is shown with what is seen of it, and any other is passed over. -/
theorem writes_digestOperand_ofInt {t : FileTree} {name : Text} {quiet : Bool} {chunk : Int}
    (fits : FileSize chunk) (notInput : name ≠ Text.ofString "-") (noNul : .char '\x00' ∉ name)
    (printable : ∀ data, t.openRaw name = .ok data → quiet = false → name.Printable) :
    Writes (digestOperand t.supply algorithm (.ofInt chunk) quiet name) (.ok (t.openRaw name).isOk)
      (shownOperand t algorithm quiet (seenInChunks chunk) name) := by
  cases opened : t.openRaw name with
  | ok data =>
      rw [shownOperand_of_opened opened]
      apply writes_digestOperand_of_ok notInput (Digest.ofFile_ofInt algorithm fits opened)
      cases quiet with
      | true => exact Text.printable_ofChars _
      | false => exact printable_digestLine (printable data opened rfl)
  | error fault =>
      obtain ⟨cause, rfl⟩ := FileTree.openRaw_error noNul opened
      rw [shownOperand, opened]
      exact writes_digestOperand_of_refused notInput opened

/-- A size that a file does not take is no fault of the operand, and ends the program. -/
theorem writes_printDigest_sizeFault (chunk : Int) {quiet : Bool} :
    Writes (printDigest algorithm quiet (.error (sizeFault chunk)))
      (.error (.raised (sizeFault chunk))) [] := by
  rw [sizeFault]
  split <;> exact writes_throw _

/-- With a chunk size that files take, a line is written for every file that can be read. -/
theorem AsksFiles.writes_launch {chunk : Int} (asks : AsksFiles around args a settings algorithm)
    (sized : settings.get .chunkSize = .int chunk) (fits : FileSize chunk) :
    Writes (launch around none args)
      (if a.operands.all fun name => (around.tree.openRaw name).isOk then .ok ()
        else .error (.exit 1))
      (a.operands.flatMap
        (shownOperand around.tree algorithm (a.has (.own .quiet)) (seenInChunks chunk))) := by
  apply writes_launchOn_of_prepared asks.toPrepared
    (writes_chooseAlgorithm_of_requested asks.requested) asks.no_verify asks.inhabited
  rw [sized]
  apply writes_printDigests
  intro name member
  exact writes_digestOperand_ofInt fits (asks.ne_input member) (asks.no_nul name member)
    (asks.printable name member)

/-- With any other chunk size, the first file that can be read ends the program. -/
theorem AsksFiles.writes_launch_of_unfit {chunk : Int}
    (asks : AsksFiles around args a settings algorithm)
    (sized : settings.get .chunkSize = .int chunk) (unfit : ¬ FileSize chunk)
    (readable : ∃ name ∈ a.operands, ∃ data, around.tree.openRaw name = .ok data) :
    Writes (launch around none args) (.error (.raised (sizeFault chunk))) [] := by
  let digest := digestOperand around.tree.supply algorithm (.ofInt chunk) (a.has (.own .quiet))
  have stops : ∀ name ∈ a.operands, ∀ data, around.tree.openRaw name = .ok data →
      Writes (digest name) (.error (.raised (sizeFault chunk))) [] := by
    intro name member data opened
    have refused : digest name = printDigest algorithm (a.has (.own .quiet))
        (.error (sizeFault chunk)) := by
      rw [← Digest.ofFile_of_unfit algorithm unfit opened]
      exact digestOperand_supply _ (asks.ne_input member)
    rw [refused]
    exact writes_printDigest_sizeFault chunk
  have each : ∀ name ∈ a.operands, (∃ readable, Writes (digest name) (.ok readable) []) ∨
      Writes (digest name) (.error (.raised (sizeFault chunk))) [] := by
    intro name member
    cases opened : around.tree.openRaw name with
    | ok data => exact .inr (stops name member data opened)
    | error fault =>
        obtain ⟨cause, rfl⟩ := FileTree.openRaw_error (asks.no_nul name member) opened
        exact .inl ⟨false, writes_digestOperand_of_refused (asks.ne_input member) opened⟩
  obtain ⟨name, member, data, opened⟩ := readable
  obtain ⟨before, -, written⟩ :=
    writes_mapM_stops each ⟨name, member, stops name member data opened⟩
  have nothing : before.flatMap (fun _ => ([] : Bytes)) = [] := by simp
  rw [nothing] at written
  apply writes_launchOn_of_prepared asks.toPrepared
    (writes_chooseAlgorithm_of_requested asks.requested) asks.no_verify asks.inhabited
  rw [sized]
  exact written.bind_error

end ChecksumProgram

end Bytewise

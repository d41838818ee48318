import Bytewise.Proofs.Checksum.Digest
import Bytewise.Proofs.Command.Start
import Bytewise.Proofs.Text.Breaks

/-!
# What a command line asks of the checksum program

The program either digests operands or verifies a listing. `AsksDigests` and `AsksVerification` say
of a command line which of the two it asks for, with which algorithm and about what; under the
default settings such a command line gets to its work (`writes_launch_digests`,
`exists_reaches`). A listing is supplied by a file, or by standard input under the name `-`.

`Reaches` is the moment at which the lines of a listing have been read and none has been looked at,
under whatever settings.
-/

namespace Bytewise.ChecksumProgram

open Run

variable {around : Surroundings} {stdin : Stream} {args : List Text} {a : Arguments (OptionKey Key)}
  {algorithm : Algorithm} {size : ReadSize} {lines : List Text} {s : Session}

/-- A command line that asks for the verification of these lines gets this far: its options are
read and their values are accepted, the settings are loaded, they or the options give the algorithm
and the read size, and the listing is read. -/
def Reaches (around : Surroundings) (stdin : Stream) (args : List Text) (algorithm : Algorithm)
    (size : ReadSize) (lines : List Text) (s : Session) : Prop :=
  ∃ a settings name s₁ s₂,
    (start program rules around none args).run.run (around.session stdin) =
        (.ok (a, settings), s₁) ∧
    (chooseAlgorithm a settings).run.run s₁ = (.ok algorithm, s₂) ∧
    ReadSize.ofValue (settings.get .chunkSize) = size ∧
    a.value? (.own .verify) = some name ∧
    (readListing around.tree (Path.ofText name).toText).run.run s₂ = (.ok lines, s)

/-- What is left to do is to verify the lines. -/
theorem launch_of_reaches (reaches : Reaches around stdin args algorithm size lines s) :
    ((Program.tool .checksum).launch around args).run.run (around.session stdin) =
      (verifyListing around.tree algorithm size lines).run.run s := by
  obtain ⟨given, settings, name, s₁, s₂, started, chosen, rfl, asked, read⟩ := reaches
  show (launch around none args).run.run (around.session stdin) = _
  simp only [launch, launchOn, work, run_bind, started, chosen, asked, read]

/-! ## Options -/

/-- The algorithm that a command line gives under the default settings. -/
def requested (a : Arguments (OptionKey Key)) : Algorithm := (a.lastOf algorithmOf).getD .crc32

/-- A command line that asks for the digests of operands in full. -/
def AsksDigests (around : Surroundings) (args : List Text) (algorithm : Algorithm)
    (names : List Text) : Prop :=
  ∃ a, Plain rules around args a ∧ requested a = algorithm ∧ a.operands = names ∧
    a.value? (.own .verify) = none ∧ a.has (.own .quiet) = false

def AsksVerification (around : Surroundings) (args : List Text) (algorithm : Algorithm)
    (listing : Text) : Prop :=
  ∃ a, Plain rules around args a ∧ requested a = algorithm ∧
    a.value? (.own .verify) = some listing

theorem writes_chooseAlgorithm (a : Arguments (OptionKey Key)) :
    Writes (chooseAlgorithm a .default) (.ok (requested a)) [] := by
  rw [chooseAlgorithm, requested]
  cases a.lastOf algorithmOf with
  | some algorithm => exact writes_pure algorithm
  | none => exact writes_pure Algorithm.crc32

/-- Of the program's options only two have a value that could be refused, and one of them is not
given. -/
theorem prepared_of_plain (untouched : around.Untouched) (plain : Plain rules around args a)
    (accepted : ∀ value, a.value? (.own .verify) = some value →
      ValueForm.path.check around.tree value = .ok ()) :
    Prepared rules around args a .default := by
  apply plain.prepared untouched
  intro rule member value given
  have noConfig : a.value? .config = none := Arguments.value?_of_not_has plain.no_config
  simp only [allRules, rules, commonRules, List.map_cons, List.map_nil, List.cons_append,
    List.nil_append, List.mem_cons, List.not_mem_nil, or_false] at member
  obtain rfl | rfl | rfl | rfl | rfl | rfl | rfl | rfl | rfl := member
  · rfl
  · rfl
  · rfl
  · exact accepted value given
  · rfl
  · simp [noConfig] at given
  · rfl
  · rfl
  · rfl

/-! ## Digests -/

theorem printable_digestLine {d : Digest} (printable : d.name.Printable) : d.line.Printable := by
  rw [Digest.line, Text.printable_append, Text.printable_append]
  exact ⟨⟨Text.printable_ofChars _, Text.printable_ofChars _⟩, printable⟩

def defaultSize : ReadSize := .ofValue (Settings.default.get .chunkSize)

theorem reads_defaultSize : defaultSize.Reads := by
  show 0 < 8192
  decide

/-- An operand that is no standard input is looked for in the tree. -/
theorem digestOperand_supply {t : FileTree} {name : Text} (quiet : Bool)
    (notInput : name ≠ Text.ofString "-") :
    digestOperand t.supply algorithm size quiet name =
      printDigest algorithm quiet (Digest.ofFile t (.ok algorithm) name size) := by
  rw [digestOperand, if_neg notInput, FileTree.opened_supply, pure_bind]
  rfl

theorem writes_digestOperand_of_ok {t : FileTree} {name : Text} {quiet : Bool} {d : Digest}
    (notInput : name ≠ Text.ofString "-")
    (digest : Digest.ofFile t (.ok algorithm) name size = .ok d)
    (printable : (d.shownLine quiet).Printable) :
    Writes (digestOperand t.supply algorithm size quiet name) (.ok true)
      (lineBytes (d.shownLine quiet)) := by
  rw [digestOperand_supply quiet notInput, digest]
  apply (writes_record _).then
  exact (writes_echo printable).bind_nil (writes_pure true)

theorem writes_digestOperand_of_refused {t : FileTree} {name : Text} {quiet : Bool}
    {cause : SystemFault} (notInput : name ≠ Text.ofString "-")
    (refused : t.openRaw name = .error (.system cause)) :
    Writes (digestOperand t.supply algorithm size quiet name) (.ok false) [] := by
  rw [digestOperand_supply quiet notInput, Digest.ofFile_of_refused algorithm size refused]
  exact (writes_complain _ _).then (writes_pure false)

theorem writes_digestOperand {t : FileTree} {name : Text} {data : Bytes} (reads : size.Reads)
    (notInput : name ≠ Text.ofString "-") (printable : name.Printable)
    (opened : t.openRaw name = .ok data) :
    Writes (digestOperand t.supply algorithm size false name) (.ok true)
      (lineBytes (Digest.line ⟨algorithm, algorithm.checksum data, data.length, name⟩)) :=
  writes_digestOperand_of_ok notInput (Digest.ofFile_of_opened algorithm reads opened)
    (printable_digestLine printable)

/-- The line that is shown of an operand, if `seen` is what is digested of its content. Nothing is
shown of an operand that cannot be read. -/
def shownOperand (t : FileTree) (algorithm : Algorithm) (quiet : Bool) (seen : Bytes → Bytes)
    (name : Text) : Bytes :=
  match t.openRaw name with
  | .ok data =>
    lineBytes (Digest.shownLine
      ⟨algorithm, algorithm.checksum (seen data), (seen data).length, name⟩ quiet)
  | .error _ => []

theorem shownOperand_of_opened {t : FileTree} {quiet : Bool} {seen : Bytes → Bytes} {name : Text}
    {data : Bytes} (opened : t.openRaw name = .ok data) :
    shownOperand t algorithm quiet seen name = lineBytes (Digest.shownLine
      ⟨algorithm, algorithm.checksum (seen data), (seen data).length, name⟩ quiet) := by
  rw [shownOperand, opened]

/-- What is left to do, once the program has got to its work, is to digest the operands. -/
theorem writes_launchOn_of_prepared {files : Supply} {settings : Settings} {r : Except Halt Unit}
    {data : Bytes} (prepared : Prepared rules around args a settings)
    (chosen : Writes (chooseAlgorithm a settings) (.ok algorithm) [])
    (noVerify : a.value? (.own .verify) = none) (inhabited : a.operands ≠ [])
    (digests : Writes (printDigests files algorithm (.ofValue (settings.get .chunkSize))
      (a.has (.own .quiet)) a.operands) r data) :
    Writes (launchOn files around none args) r data := by
  have named : a.operands.isEmpty = false := by simpa using inhabited
  unfold launchOn
  apply (writes_start_of_prepared program prepared).then
  apply chosen.then
  rw [work, noVerify, named]
  exact digests

/-- Operands are digested one by one, and the program ends well if all of them were readable. -/
theorem writes_printDigests {files : Supply} {quiet : Bool} {names : List Text}
    {readable : Text → Bool} {shown : Text → Bytes}
    (each : ∀ name ∈ names, Writes (digestOperand files algorithm size quiet name)
      (.ok (readable name)) (shown name)) :
    Writes (printDigests files algorithm size quiet names)
      (if names.all readable then .ok () else .error (.exit 1)) (names.flatMap shown) := by
  have ends : Writes (if (names.map readable).all id then pure () else exit 1)
      (if names.all readable then .ok () else .error (.exit 1)) [] := by
    rw [List.all_map]
    show Writes (if names.all readable then pure () else exit 1) _ _
    split
    · exact writes_pure ()
    · exact writes_throw _
  exact (writes_mapM each).bind_nil ends

/-- A command line that asks for the digests of files which can be read writes a line for each. -/
theorem writes_launch_digests {files : List (Text × Bytes)} (untouched : around.Untouched)
    (asks : AsksDigests around args algorithm (files.map (·.1))) (inhabited : files ≠ [])
    (notInput : ∀ f ∈ files, f.1 ≠ Text.ofString "-") (printable : ∀ f ∈ files, f.1.Printable)
    (readable : ∀ f ∈ files, around.tree.openRaw f.1 = .ok f.2) :
    Writes (launch around none args) (.ok ())
      (files.flatMap fun f =>
        lineBytes (Digest.line ⟨algorithm, algorithm.checksum f.2, f.2.length, f.1⟩)) := by
  obtain ⟨a, plain, rfl, operands, noVerify, notQuiet⟩ := asks
  have prepared := prepared_of_plain untouched plain (by simp [noVerify])
  have named : a.operands ≠ [] := by simpa [operands] using inhabited
  have each : ∀ name ∈ a.operands, Writes
      (digestOperand around.tree.supply (requested a) defaultSize (a.has (.own .quiet)) name)
      (.ok true)
      (shownOperand around.tree (requested a) false id name) := by
    rw [operands, List.forall_mem_map, notQuiet]
    intro f member
    rw [shownOperand_of_opened (readable f member)]
    exact writes_digestOperand reads_defaultSize (notInput f member) (printable f member)
      (readable f member)
  have written := writes_launchOn_of_prepared prepared (writes_chooseAlgorithm a) noVerify named
    (writes_printDigests each)
  rw [if_pos (by simp), operands, List.flatMap_map] at written
  have shown : files.flatMap (fun f => shownOperand around.tree (requested a) false id f.1) =
      files.flatMap fun f =>
        lineBytes (Digest.line ⟨requested a, (requested a).checksum f.2, f.2.length, f.1⟩) := by
    rw [List.flatMap_def, List.flatMap_def]
    exact congrArg List.flatten
      (List.map_congr_left fun f member => shownOperand_of_opened (readable f member))
  exact shown ▸ written

/-! ## Listings -/

/-- A listing is supplied under a name: by the file of that name, or by standard input under `-`. -/
def Supplies (around : Surroundings) (stdin : Stream) (listing : Text) (data : Bytes) : Prop :=
  if (Path.ofText listing).toText = Text.ofString "-" then
    ValueForm.path.check around.tree listing = .ok () ∧
      ∃ rest, stdin.read .everything = .ok (data, rest)
  else around.tree.openRaw (Path.ofText listing).toText = .ok data

/-- The name of a file that can be read is accepted as the value of an option. -/
theorem check_path_of_opened {t : FileTree} {name : Text} {data : Bytes}
    (opened : t.openRaw (Path.ofText name).toText = .ok data) :
    ValueForm.path.check t name = .ok () := by
  have noNul : .char '\x00' ∉ name := by
    rw [← Path.mem_toText_ofText (by decide) (by decide)]
    intro nul
    rw [FileTree.openRaw_of_nul nul] at opened
    cases opened
  rw [ValueForm.check]
  cases found : t.find name with
  | ok node =>
      rw [FileTree.openRaw, FileTree.find_toText_ofText found] at opened
      cases node with
      | link target => rfl
      | directory access entries =>
          cases readable : access.read <;> simp [Node.content, readable, Except.mapError] at opened
      | file access data =>
          cases readable : access.read with
          | true => simp [readable]
          | false => simp [Node.content, readable, Except.mapError] at opened
  | error fault =>
      have refused : t.openRaw name = .error fault := by rw [FileTree.openRaw, found]
      obtain ⟨cause, rfl⟩ := FileTree.openRaw_error noNul refused
      rfl

theorem check_path_of_supplies {listing : Text} {data : Bytes}
    (supplies : Supplies around stdin listing data) :
    ValueForm.path.check around.tree listing = .ok () := by
  rw [Supplies] at supplies
  split at supplies
  · exact supplies.1
  · exact check_path_of_opened supplies

/-- The lines of a listing without carriage returns are read from wherever it is supplied. -/
theorem run_readListing {listing : Text} {data : Bytes}
    (supplies : Supplies around s.stdin listing data)
    (noReturn : .char '\r' ∉ Utf8.decode data) :
    ∃ s', (readListing around.tree (Path.ofText listing).toText).run.run s =
      (.ok (Text.lines (Utf8.decode data)), s') ∧ s'.out = s.out := by
  rw [Supplies] at supplies
  split at supplies
  next input =>
    obtain ⟨-, rest, read⟩ := supplies
    refine ⟨{ s with stdin := rest }, ?_, rfl⟩
    rw [readListing, if_pos input]
    simp only [run_bind, run_readInput, read, orRaise]
    rfl
  next file =>
    refine ⟨s, ?_, rfl⟩
    have text : around.tree.readSymbols (Path.ofText listing).toText = .ok (Utf8.decode data) := by
      rw [FileTree.readSymbols, supplies]
      show Except.ok (universalNewlines (Utf8.decode data)) = _
      rw [universalNewlines_of_not_mem noReturn]
    rw [readListing, if_neg file, text]
    rfl

/-- A command line that asks for the verification of a listing gets to its lines. -/
theorem exists_reaches {listing : Text} {data : Bytes} (untouched : around.Untouched)
    (asks : AsksVerification around args algorithm listing)
    (supplies : Supplies around stdin listing data)
    (noReturn : .char '\r' ∉ Utf8.decode data) :
    ∃ s, Reaches around stdin args algorithm defaultSize (Text.lines (Utf8.decode data)) s ∧
      s.out.bytes = [] := by
  obtain ⟨a, plain, rfl, asked⟩ := asks
  have accepted : ∀ value, a.value? (.own .verify) = some value →
      ValueForm.path.check around.tree value = .ok () := by
    intro value given
    rw [asked] at given
    cases given
    exact check_path_of_supplies supplies
  obtain ⟨s₁, started, out₁, stdin₁⟩ :=
    writes_start_of_prepared program (prepared_of_plain untouched plain accepted)
      (around.session stdin)
  obtain ⟨s₂, chosen, out₂, stdin₂⟩ := writes_chooseAlgorithm a s₁
  have supplies' : Supplies around s₂.stdin listing data := by
    rw [stdin₂, stdin₁]
    exact supplies
  obtain ⟨s, read, out⟩ := run_readListing supplies' noReturn
  refine ⟨s, ⟨a, .default, listing, s₁, s₂, started, chosen, rfl, asked, read⟩, ?_⟩
  rw [out, out₂, out₁]
  rfl

end Bytewise.ChecksumProgram

import Bytewise.Package.Standard
import Bytewise.Proofs.Command.Digests
import Bytewise.Proofs.Command.WordCount
import Bytewise.Proofs.Survey.Counting

/-!
# Settings for the pace of the tools

Three settings are there only for the pace at which files are read: how much the checksum program
asks for in one read, how much of a file the count program holds at a time, and whether the survey
program maps files. The last makes no difference whatever its value is, since both kinds of buffers
show the same bytes. The other two make no difference as long as they are sizes in which a file can
be read to its end. A number below minus one is none, since a file refuses it, and neither is zero,
nor, for the count program, minus one.
-/

namespace Bytewise

/-! ## Mapped files -/

namespace Surveyor

variable {s : Surveyor} {t : FileTree} {package : PatternPackage}

/-- The surveyor that maps files, or the one that does not. -/
def withMapping (s : Surveyor) (mapping : Bool) : Surveyor := { s with mapping := mapping }

theorem make_mapping (registry : Registry) (patterns skipHidden sniff mapping mapping' : Value) :
    make package registry patterns skipHidden sniff mapping' =
      (make package registry patterns skipHidden sniff mapping).map
        (·.withMapping mapping'.truthy) := by
  unfold make
  cases patterns.truthy with
  | false => rfl
  | true =>
      cases ignoredBy package patterns with
      | error fault => rfl
      | ok ignored => rfl

theorem classifyFile_withMapping (s : Surveyor) (mapping : Bool) (t : FileTree) (path : Text)
    (l : Language) (made : Classifiers) :
    (s.withMapping mapping).classifyFile t path l made = s.classifyFile t path l made := by
  cases opened : t.openRaw path with
  | error fault =>
      have refused := FileTree.openBuffer_of_refused opened
      simp only [classifyFile, refused]
  | ok data =>
      obtain ⟨buffer, held, shows⟩ := FileTree.openBuffer_of_openRaw opened s.mapping
      obtain ⟨buffer', held', shows'⟩ := FileTree.openBuffer_of_openRaw opened mapping
      simp only [classifyFile, withMapping, held, held', bind, Except.bind, shows, shows']

theorem countFile_withMapping (s : Surveyor) (mapping : Bool) (t : FileTree) (path : Text) :
    (s.withMapping mapping).countFile t path = s.countFile t path := by
  funext made
  simp only [countFile, classifyFile_withMapping]
  rfl

theorem meet_withMapping (s : Surveyor) (mapping : Bool) (t : FileTree) (path : Path) (name : Text)
    (treatment : Treatment) :
    (s.withMapping mapping).meet t path name treatment = s.meet t path name treatment := by
  cases treatment with
  | counted => simp only [meet, visitFile, countFile_withMapping]
  | _ => rfl

theorem walk_withMapping (s : Surveyor) (mapping : Bool) (t : FileTree) (path : Path)
    (relative : List Text) (node : Node) :
    (s.withMapping mapping).walk t path relative node = s.walk t path relative node := by
  induction node using Node.insideInduction generalizing path relative with
  | file access data => rw [walk, walk]
  | link target => rw [walk, walk]
  | directory access entries ih =>
      cases listed : access.read with
      | false =>
          rw [walk, walk, listed]
          simp only [Bool.false_eq_true, ↓reduceIte]
      | true =>
          rw [walk_listed listed, walk_listed listed]
          refine congrArg Survey.inTurn (List.map_congr_left fun e sorted => ?_)
          have treated : (s.withMapping mapping).treatment path relative access e.1 e.2 =
              s.treatment path relative access e.1 e.2 := rfl
          rw [entryWork, entryWork, treated]
          split
          · exact ih e (List.mem_mergeSort.mp sorted) _ _
          · exact meet_withMapping s mapping t path e.1 _

/-- Whether files are mapped makes no difference to a survey. -/
theorem run_withMapping (s : Surveyor) (mapping : Bool) (t : FileTree) (paths : List Text) :
    (s.withMapping mapping).run t paths = s.run t paths := by
  have visited (given : Text) : (s.withMapping mapping).visit t given = s.visit t given := by
    simp only [visit, scan, walk_withMapping, countFile_withMapping]
  rw [run, run, funext visited]

end Surveyor

namespace SurveyProgram

open Run

variable {package : PatternPackage} {around around' : Surroundings} {args : List Text}
  {a : Arguments (OptionKey Key)} {settings settings' : Settings}

/-- The settings give the same surveyor, but for mapping. -/
theorem surveyor_congr (samePatterns : settings'.get .ignorePatterns = settings.get .ignorePatterns)
    (sameHidden : settings'.get .skipHidden = settings.get .skipHidden)
    (sameSniff : settings'.get .headerSniffBytes = settings.get .headerSniffBytes) :
    surveyor package a settings' =
      (surveyor package a settings).map (·.withMapping (settings'.get .useMmap).truthy) := by
  simp only [surveyor, samePatterns, sameHidden, sameSniff]
  cases (settings.get .ignorePatterns).items? with
  | none => rfl
  | some patterns => exact Surveyor.make_mapping ..

theorem launch_congr (samePackages : around'.packages = around.packages)
    (sameTree : around'.tree = around.tree) (loads : Loads rules around args a settings)
    (loads' : Loads rules around' args a settings')
    (sameLog : ∀ verbose,
      LogSettings.ofSettings settings' verbose = LogSettings.ofSettings settings verbose)
    (samePatterns : settings'.get .ignorePatterns = settings.get .ignorePatterns)
    (sameHidden : settings'.get .skipHidden = settings.get .skipHidden)
    (sameSniff : settings'.get .headerSniffBytes = settings.get .headerSniffBytes) :
    launch around' none args = launch around none args := by
  apply start_bind_congr program samePackages sameTree loads loads' sameLog
  dsimp only
  rw [surveyor_congr samePatterns sameHidden sameSniff, samePackages, sameTree]
  cases surveyor around.packages.patterns a settings with
  | error fault => rfl
  | ok s =>
      have same := s.run_withMapping (settings'.get .useMmap).truthy around.tree a.operands
      simp only [Except.map, orRaise, pure_bind, same]

end SurveyProgram

/-! ## All three tools -/

/-- The settings with those for the pace as nobody set them. -/
def Settings.standardPace (s : Settings) : Settings :=
  ((s.set .chunkSize Field.chunkSize.default).set .bufferSize Field.bufferSize.default).set
    .useMmap Field.useMmap.default

theorem LogSettings.ofSettings_standardPace (s : Settings) (verbose : Bool) :
    ofSettings s.standardPace verbose = ofSettings s verbose := rfl

theorem LogSettings.exists_ofSettings_of_standardPace {s : Settings}
    (standard : s.standardPace = .default) (verbose : Bool) :
    ∃ log, ofSettings s verbose = .ok log := by
  rw [← ofSettings_standardPace, standard]
  exact exists_ofSettings_default verbose

namespace Tool

variable {around around' : Surroundings} {args : List Text}

theorem run_congr (tool : Tool) (samePackages : around'.packages = around.packages)
    (stdin : Stream) (same : tool.launch around' none args = tool.launch around none args) :
    (Program.tool tool).run around' stdin args = (Program.tool tool).run around stdin args := by
  rw [Program.run, Program.run, Program.launch, Program.launch, same, Surroundings.session,
    Surroundings.session, samePackages]

/-- What is printed by a tool that reports at its end whether it could do everything. -/
theorem run_of_writes (tool : Tool) (stdin : Stream) {all : Bool} {data : Bytes}
    (writes : Run.Writes (tool.launch around none args)
      (if all then .ok () else .error (.exit 1)) data) :
    ((Program.tool tool).run around stdin args).out = data ∧
      ((Program.tool tool).run around stdin args).ending = .exit (if all then 0 else 1) := by
  have leads : ((Program.tool tool).launch around args).run.run (around.session stdin) =
      (tool.launch around none args).run.run (around.session stdin) := rfl
  obtain ⟨out, ending⟩ := Program.run_of_writes leads writes
  refine ⟨out, ending.trans ?_⟩
  cases all <;> rfl

end Tool

/-- What the settings for the pace do to the results of the three tools that they are for, with the
same files and otherwise the same settings.

Every command line of the checksum program that is about files comes to the same under every chunk
size that a file takes but zero. For every file that can be read a line is printed with the checksum
of what is seen of it: all of it, or nothing if the chunk size is zero. A size that a file does not
take, which is one below minus one or out of the system's bounds, ends the program at the first file
that can be read, and nothing is printed.

Every command line of the count program that is about files comes to the same under every positive
buffer size with which the files are counted. For every file that can be read a row is printed with
its counts, which are all zero if the buffer size is not positive. A file that is not counted with
the size, since it is no larger and does not take it, ends the program.

Every command line of the survey program comes to the same whether files are mapped or not, and what
it counts is counted in the whole content of files. -/
theorem results_under_pace (around around' : Surroundings)
    (samePackages : around'.packages = around.packages) (sameTree : around'.tree = around.tree)
    (stdin : Stream) (args : List Text) (settings : Settings) {chunk buffer : Int}
    (chunked : settings.get .chunkSize = .int chunk)
    (buffered : settings.get .bufferSize = .int buffer) :
    (∀ a, Loads ChecksumProgram.rules around args a settings →
      Loads ChecksumProgram.rules around' args a settings.standardPace →
      ChecksumProgram.OfFiles a → FileSize chunk → chunk ≠ 0 →
      (Program.tool .checksum).run around' stdin args =
        (Program.tool .checksum).run around stdin args) ∧
    (∀ a algorithm, ChecksumProgram.AsksFiles around args a settings algorithm →
      (FileSize chunk →
        ((Program.tool .checksum).run around stdin args).out =
          a.operands.flatMap (ChecksumProgram.shownOperand around.tree algorithm
            (a.has (.own .quiet)) (seenInChunks chunk)) ∧
        ((Program.tool .checksum).run around stdin args).ending =
          .exit (if a.operands.all fun name => (around.tree.openRaw name).isOk then 0 else 1)) ∧
      (¬ FileSize chunk → (∃ name ∈ a.operands, ∃ data, around.tree.openRaw name = .ok data) →
        ((Program.tool .checksum).run around stdin args).out = [] ∧
        ((Program.tool .checksum).run around stdin args).ending = .raised (sizeFault chunk))) ∧
    (∀ a, Loads WordCountProgram.rules around args a settings →
      Loads WordCountProgram.rules around' args a settings.standardPace → a.operands ≠ [] →
      0 < buffer → (∀ name ∈ a.operands, ∀ data, around.tree.openRaw name = .ok data →
        Tally.CountsWith buffer data) →
      (Program.tool .wordCount).run around' stdin args =
        (Program.tool .wordCount).run around stdin args) ∧
    (∀ a, WordCountProgram.AsksFiles around args a settings →
      ((∀ name ∈ a.operands, ∀ data, around.tree.openRaw name = .ok data →
        Tally.CountsWith buffer data) →
        ((Program.tool .wordCount).run around stdin args).out =
          a.operands.flatMap (WordCountProgram.shownRow around.tree buffer) ++
            WordCountProgram.shownTotal
              (a.operands.filterMap (WordCountProgram.tallyOf around.tree buffer)) ∧
        ((Program.tool .wordCount).run around stdin args).ending =
          .exit (if a.operands.all fun name => (around.tree.openRaw name).isOk then 0 else 1)) ∧
      ((∃ name ∈ a.operands, ∃ data, around.tree.openRaw name = .ok data ∧
        ¬ Tally.CountsWith buffer data) →
        ((Program.tool .wordCount).run around stdin args).ending =
          .raised (sizeFault buffer))) ∧
    (∀ a, Loads SurveyProgram.rules around args a settings →
      Loads SurveyProgram.rules around' args a settings.standardPace →
      (Program.tool .survey).run around' stdin args =
        (Program.tool .survey).run around stdin args) ∧
    ∀ a s, SurveyProgram.surveyor around.packages.patterns a settings = .ok s →
      ∀ x ∈ (s.run around.tree a.operands).fresh.counted,
        ∃ data c, around.tree.openRaw x.1.path = .ok data ∧ Classifier.make x.2 = .ok c ∧
          x.1 = c.count x.1.path data := by
  have sameLog := LogSettings.ofSettings_standardPace settings
  refine ⟨?_, ?_, ?_, ?_, ?_, ?_⟩
  · intro a loads loads' ofFiles fits nonzero
    have reads : (ReadSize.ofValue (settings.get .chunkSize)).Reads := by
      rw [chunked]
      exact ReadSize.reads_ofInt_of_fileSize fits nonzero
    exact Tool.run_congr .checksum samePackages stdin (ChecksumProgram.launch_congr samePackages
      sameTree loads loads' sameLog rfl ofFiles reads ChecksumProgram.reads_defaultSize)
  · intro a algorithm asks
    refine ⟨fun fits => ?_, fun unfit readable => ?_⟩
    · exact Tool.run_of_writes .checksum stdin (asks.writes_launch chunked fits)
    · exact Program.run_of_writes (p := .tool .checksum) rfl
        (asks.writes_launch_of_unfit chunked unfit readable)
  · intro a loads loads' inhabited positive counts
    have standard (data : Bytes) : Tally.CountsWith 16384 data := .inl (by decide)
    exact Tool.run_congr .wordCount samePackages stdin (WordCountProgram.launch_congr samePackages
      sameTree loads loads' sameLog inhabited buffered rfl positive (by decide)
      fun name member data opened => ⟨counts name member data opened, standard data⟩)
  · intro a asks
    refine ⟨fun counts => ?_, fun unfit => ?_⟩
    · exact Tool.run_of_writes .wordCount stdin (asks.writes_launch buffered counts)
    · obtain ⟨before, -, written⟩ := asks.writes_launch_of_unfit buffered unfit
      exact (Program.run_of_writes (p := .tool .wordCount) rfl written).2
  · intro a loads loads'
    exact Tool.run_congr .survey samePackages stdin
      (SurveyProgram.launch_congr samePackages sameTree loads loads' sameLog rfl rfl rfl)
  · intro a s made x member
    exact (Surveyor.genuine_iff.mp (Surveyor.genuine_of_mem_run member)).2

section

variable {around : Surroundings} {settings : Settings}

/-- The command line that names one file, under settings with which the program gets to its work. -/
theorem ChecksumProgram.asksFiles_a
    (read : around.packages.commandLine.read (allRules rules) true ["a"] =
      .ok { operands := ["a"] }) (loaded : around.load none = .ok settings)
    (crc : settings.get .algorithm = "crc32")
    (logged : ∃ log, LogSettings.ofSettings settings false = .ok log) :
    AsksFiles around ["a"] { operands := ["a"] } settings .crc32 where
  read := read
  loaded := loaded
  no_version := rfl
  no_help := rfl
  accepted := nofun
  logged := logged
  requested := by
    rw [requestedUnder, crc]
    rfl
  no_verify := rfl
  inhabited := by decide
  not_input := by decide
  no_nul := by decide
  printable := fun name member _ _ _ => by
    rw [List.mem_singleton.mp member]
    exact Text.printable_ofChars _

theorem WordCountProgram.asksFiles_a
    (read : around.packages.commandLine.read (allRules rules) true ["a"] =
      .ok { operands := ["a"] }) (loaded : around.load none = .ok settings)
    (logged : ∃ log, LogSettings.ofSettings settings false = .ok log) :
    AsksFiles around ["a"] { operands := ["a"] } settings where
  read := read
  loaded := loaded
  no_version := rfl
  no_help := rfl
  accepted := nofun
  logged := logged
  inhabited := by decide
  no_nul := by decide
  printable := fun name member _ _ => by
    rw [List.mem_singleton.mp member]
    exact Text.printable_ofChars _

end

/-- A file of one byte, digested in chunks of any size, counted with a buffer of one byte and not
mapped: the results are right, and they are those of the default settings. -/
theorem results_under_pace_oneByte :
    let tree : FileTree := [("a", .file {} [0x78])]
    let around : Surroundings := ⟨.standard, tree, [("DEVUTILS_CLOC_USE_MMAP", "no"),
      ("DEVUTILS_CHECKSUM_CHUNK_SIZE", "-1"), ("DEVUTILS_COUNTFILE_BUFFER_SIZE", "1")]⟩
    (Program.tool .checksum).run ⟨.standard, tree, []⟩ (.ofBytes []) ["a"] =
        (Program.tool .checksum).run around (.ofBytes []) ["a"] ∧
      ((Program.tool .checksum).run around (.ofBytes []) ["a"]).out =
        Run.lineBytes "8cdc1683  a" ∧
      (Program.tool .wordCount).run ⟨.standard, tree, []⟩ (.ofBytes []) ["a"] =
        (Program.tool .wordCount).run around (.ofBytes []) ["a"] ∧
      ((Program.tool .wordCount).run around (.ofBytes []) ["a"]).out =
        Run.lineBytes "       0        1        1        1 a" ∧
      (Program.tool .survey).run ⟨.standard, tree, []⟩ (.ofBytes []) ["a"] =
        (Program.tool .survey).run around (.ofBytes []) ["a"] := by
  intro tree around
  let settings : Settings := ((Settings.default.set .useMmap (.bool false)).set .chunkSize
    (.int (-1))).set .bufferSize (.int 1)
  have loaded : around.load none = .ok settings := by cbv
  have standard : settings.standardPace = .default :=
    congrArg Settings.mk (funext fun f => by cases f <;> rfl)
  have logged := LogSettings.exists_ofSettings_of_standardPace standard false
  have loaded' : Surroundings.load ⟨.standard, tree, []⟩ none = .ok settings.standardPace :=
    congrArg Except.ok standard.symm
  have counted : ∀ name ∈ [Text.ofString "a"], ∀ data, tree.openRaw name = .ok data →
      Tally.CountsWith 1 data := fun _ _ _ _ => .inl (by decide)
  obtain ⟨digests, digest, counts, count, surveys, -⟩ :=
    results_under_pace around ⟨.standard, tree, []⟩ rfl rfl (.ofBytes []) ["a"] settings rfl rfl
  refine ⟨?_, ?_, ?_, ?_, ?_⟩
  · exact digests { operands := ["a"] } ⟨rfl, loaded⟩ ⟨rfl, loaded'⟩ (.inr (by decide)) (by decide)
      (by decide)
  · have asks : ChecksumProgram.AsksFiles around ["a"] { operands := ["a"] } settings .crc32 :=
      ChecksumProgram.asksFiles_a rfl loaded rfl logged
    exact ((digest _ .crc32 asks).1 (by decide)).1.trans (by cbv)
  · exact counts { operands := ["a"] } ⟨rfl, loaded⟩ ⟨rfl, loaded'⟩ (by decide) (by decide) counted
  · have asks : WordCountProgram.AsksFiles around ["a"] { operands := ["a"] } settings :=
      WordCountProgram.asksFiles_a rfl loaded logged
    exact ((count _ asks).1 counted).1.trans (by cbv)
  · exact surveys { operands := ["a"] } ⟨rfl, loaded⟩ ⟨rfl, loaded'⟩

/-- Sizes are set that are not positive, and the settings are accepted. A file of one byte can be
read, but the checksum printed is that of nothing, and so are the counts; the exit status says that
all went well. -/
theorem nothing_seen_under_pace :
    let tree : FileTree := [("a", .file {} [0x78])]
    let around : Surroundings := ⟨.standard, tree, [("DEVUTILS_CHECKSUM_CHUNK_SIZE", "0"),
      ("DEVUTILS_COUNTFILE_BUFFER_SIZE", "-1")]⟩
    (∃ settings, around.load none = .ok settings ∧
      settings.get .chunkSize = .int 0 ∧ settings.get .bufferSize = .int (-1) ∧
      settings.get .useMmap = .bool true) ∧
    tree.openRaw "a" = .ok [0x78] ∧
    ((Program.tool .checksum).run around (.ofBytes []) ["a"]).out = Run.lineBytes "00000000  a" ∧
    ((Program.tool .checksum).run around (.ofBytes []) ["a"]).ending = .exit 0 ∧
    ((Program.tool .checksum).run ⟨.standard, tree, []⟩ (.ofBytes []) ["a"]).out =
      Run.lineBytes "8cdc1683  a" ∧
    ((Program.tool .wordCount).run around (.ofBytes []) ["a"]).out =
      Run.lineBytes "       0        0        0        0 a" ∧
    ((Program.tool .wordCount).run around (.ofBytes []) ["a"]).ending = .exit 0 ∧
    ((Program.tool .wordCount).run ⟨.standard, tree, []⟩ (.ofBytes []) ["a"]).out =
      Run.lineBytes "       0        1        1        1 a" := by
  intro tree around
  have opened : tree.openRaw "a" = .ok [0x78] := by cbv
  let settings : Settings := (Settings.default.set .chunkSize (.int 0)).set .bufferSize (.int (-1))
  have loaded : around.load none = .ok settings := by cbv
  have standard : settings.standardPace = .default :=
    congrArg Settings.mk (funext fun f => by cases f <;> rfl)
  have logged := LogSettings.exists_ofSettings_of_standardPace standard false
  have untouched : Surroundings.load ⟨.standard, tree, []⟩ none = .ok .default := rfl
  have counts {buffer : Int} (fits : ∀ data, tree.openRaw "a" = .ok data →
      Tally.CountsWith buffer data) : ∀ name ∈ [Text.ofString "a"], ∀ data,
      tree.openRaw name = .ok data → Tally.CountsWith buffer data := fun name member => by
    rw [List.mem_singleton.mp member]
    exact fits
  have digests : ChecksumProgram.AsksFiles around ["a"] { operands := ["a"] } settings .crc32 :=
    ChecksumProgram.asksFiles_a rfl loaded rfl logged
  have digests' :
      ChecksumProgram.AsksFiles ⟨.standard, tree, []⟩ ["a"] { operands := ["a"] } .default .crc32 :=
    ChecksumProgram.asksFiles_a rfl untouched rfl (LogSettings.exists_ofSettings_default _)
  have rows : WordCountProgram.AsksFiles around ["a"] { operands := ["a"] } settings :=
    WordCountProgram.asksFiles_a rfl loaded logged
  have rows' : WordCountProgram.AsksFiles ⟨.standard, tree, []⟩ ["a"] { operands := ["a"] }
      .default :=
    WordCountProgram.asksFiles_a rfl untouched (LogSettings.exists_ofSettings_default _)
  have zero : settings.get .chunkSize = .int 0 := rfl
  have negative : settings.get .bufferSize = .int (-1) := rfl
  have chunk : Settings.default.get .chunkSize = .int 8192 := rfl
  have buffer : Settings.default.get .bufferSize = .int 16384 := rfl
  obtain ⟨digest, ended⟩ := Tool.run_of_writes .checksum (.ofBytes [])
    (digests.writes_launch zero (by decide))
  obtain ⟨digest', -⟩ := Tool.run_of_writes .checksum (.ofBytes [])
    (digests'.writes_launch chunk (by decide))
  obtain ⟨count, ended'⟩ := Tool.run_of_writes .wordCount (.ofBytes [])
    (rows.writes_launch negative (counts fun _ _ => .inl (by decide)))
  obtain ⟨count', -⟩ := Tool.run_of_writes .wordCount (.ofBytes [])
    (rows'.writes_launch buffer (counts fun _ _ => .inl (by decide)))
  exact ⟨⟨settings, loaded, zero, negative, rfl⟩, opened, digest.trans (by cbv),
    ended.trans (by cbv), digest'.trans (by cbv), count.trans (by cbv), ended'.trans (by cbv),
    count'.trans (by cbv)⟩

end Bytewise

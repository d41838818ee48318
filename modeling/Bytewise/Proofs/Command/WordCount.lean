import Bytewise.Proofs.Command.Start
import Bytewise.Proofs.FileTree.Names
import Bytewise.Proofs.WordCount

/-!
# Counts with a buffer of any size

What the count program prints for files does not depend on the buffer size, as long as that is
positive and every file that can be read is counted with it (`WordCountProgram.launch_congr`). A
buffer size that is not positive finds nothing in any file that is counted with it, and the first
file that is not counted ends the program (`WordCountProgram.AsksFiles.writes_launch`,
`WordCountProgram.AsksFiles.writes_launch_of_unfit`).
-/

namespace Bytewise

namespace Tally

variable {t : FileTree} {name : Text} {data : Bytes} {buffer : Int}

/-- An operand that is opened in a tree is counted as the file of that name. -/
theorem countOpened_supply (t : FileTree) (name : Text) (buffer : Value) :
    countOpened (t.supply.opened name) name buffer = countFile t name buffer := by
  rw [FileTree.opened_supply, countFile]

theorem countFile_of_unopened {fault : Fault} (refused : t.openRaw name = .error fault)
    (buffer : Value) : countFile t name buffer = ⟨.error (fault.asUnreadable name), none⟩ := by
  rw [countFile, refused]
  rfl

theorem tally_countFile_of_countsWith (opened : t.openRaw name = .ok data)
    (counts : CountsWith buffer data) :
    (countFile t name (.int buffer)).tally = .ok (countedWith buffer data) := by
  rw [tally_countFile opened, if_pos counts]

theorem tally_countFile_of_unfit (opened : t.openRaw name = .ok data)
    (unfit : ¬ CountsWith buffer data) :
    (countFile t name (.int buffer)).tally = .error (sizeFault buffer) := by
  rw [tally_countFile opened, if_neg unfit]

/-- With a positive buffer size there is nothing to note. -/
theorem unmapped_countFile_of_positive (opened : t.openRaw name = .ok data)
    (positive : 0 < buffer) : (countFile t name (.int buffer)).unmapped = none := by
  have held : (Stream.ofFile data).whole = data := rfl
  have file : (Stream.ofFile data).isFile = true := rfl
  rw [countFile, opened]
  simp only [countOpened, Except.map, Value.int?, file, held, List.isEmpty_iff, ↓reduceIte]
  split
  next => rfl
  next larger =>
    have inhabited : data ≠ [] := by
      rintro rfl
      exact larger (Int.le_of_lt positive)
    rw [if_neg inhabited, if_neg (Int.ne_of_gt positive), if_neg (by omega)]

theorem countFile_of_positive (opened : t.openRaw name = .ok data) (positive : 0 < buffer)
    (counts : CountsWith buffer data) :
    countFile t name (.int buffer) = ⟨.ok (prescribed data), none⟩ := by
  have counted := tally_countFile_of_countsWith opened counts
  rw [countedWith, if_pos positive] at counted
  rw [← counted, ← unmapped_countFile_of_positive opened positive]

theorem printable_row (tally : Tally) {name : Text} (printable : name.Printable) :
    (tally.row name).Printable := by
  have numbers (n : Int) : (Text.ofChars (Numeral.rightAligned 8 n)).Printable :=
    Text.printable_ofChars _
  have space : Text.Printable " " := Text.printable_ofChars _
  rw [row]
  dsimp only [Text.join]
  split <;> simp only [Text.printable_append, numbers, space, printable, and_self]

end Tally

namespace WordCountProgram

open Run

variable {around around' : Surroundings} {args : List Text} {a : Arguments (OptionKey Empty)}
  {settings settings' : Settings} {t : FileTree} {name : Text} {buffer : Value}

/-! ## One operand -/

theorem writes_countOperand_of_report {r : Except Halt (Option Tally)} {data : Bytes}
    (reports : Writes (report name (countFile t name buffer).tally) r data) :
    Writes (countOperand t.supply buffer name) r data := by
  simp only [countOperand, Tally.countOpened_supply]
  cases (countFile t name buffer).unmapped with
  | none => exact reports
  | some cause => exact (writes_record _).then reports

theorem writes_countOperand {tally : Tally} (counted : (countFile t name buffer).tally = .ok tally)
    (printable : name.Printable) :
    Writes (countOperand t.supply buffer name) (.ok (some tally)) (lineBytes (tally.row name)) := by
  apply writes_countOperand_of_report
  rw [counted]
  exact (writes_echo (tally.printable_row printable)).bind_nil (writes_pure (some tally))

theorem writes_countOperand_of_refused {cause : SystemFault}
    (refused : t.openRaw name = .error (.system cause)) :
    Writes (countOperand t.supply buffer name) (.ok none) [] := by
  apply writes_countOperand_of_report
  rw [Tally.countFile_of_unopened refused]
  exact (writes_complain _ _).then (writes_pure none)

/-- A size that a file does not take is no fault of the operand, and ends the program. -/
theorem writes_countOperand_of_sizeFault {size : Int}
    (refused : (countFile t name buffer).tally = .error (sizeFault size)) :
    Writes (countOperand t.supply buffer name) (.error (.raised (sizeFault size))) [] := by
  apply writes_countOperand_of_report
  rw [refused, sizeFault]
  split <;> exact writes_throw _

/-! ## All operands -/

/-- The counts of an operand with a buffer of a size, if it can be read. -/
def tallyOf (t : FileTree) (buffer : Int) (name : Text) : Option Tally :=
  (t.openRaw name).toOption.map (Tally.countedWith buffer)

/-- The row that is shown of an operand. Nothing is shown of one that cannot be read. -/
def shownRow (t : FileTree) (buffer : Int) (name : Text) : Bytes :=
  match tallyOf t buffer name with
  | some tally => lineBytes (tally.row name)
  | none => []

/-- The row behind those of the operands, which is there if more than one was counted. -/
def shownTotal (tallies : List Tally) : Bytes :=
  if 1 < tallies.length then lineBytes ((Tally.total tallies).row "total") else []

/-- A command line that asks for the counts of files, by names that the system can be asked for and,
as far as the files can be read, that can be printed. -/
structure AsksFiles (around : Surroundings) (args : List Text) (a : Arguments (OptionKey Empty))
    (settings : Settings) : Prop extends Prepared rules around args a settings where
  inhabited : a.operands ≠ []
  no_nul : ∀ name ∈ a.operands, .char '\x00' ∉ name
  printable : ∀ name ∈ a.operands, ∀ data, around.tree.openRaw name = .ok data → name.Printable

theorem writes_conclude (outcomes : List (Option Tally)) :
    Writes (conclude outcomes)
      (if outcomes.all Option.isSome then .ok () else .error (.exit 1))
      (shownTotal (outcomes.filterMap id)) := by
  have ends : Writes (if outcomes.all Option.isSome then pure () else exit 1)
      (if outcomes.all Option.isSome then .ok () else .error (.exit 1)) [] := by
    split
    · exact writes_pure ()
    · exact writes_throw _
  unfold conclude shownTotal
  dsimp only
  by_cases several : 1 < (outcomes.filterMap id).length
  · rw [if_pos several, if_pos several]
    have total : ((Tally.total (outcomes.filterMap id)).row "total").Printable :=
      Tally.printable_row _ (Text.printable_ofChars _)
    exact (writes_echo total).bind_nil ends
  · rw [if_neg several, if_neg several]
    exact ends

theorem AsksFiles.writes_launch_of {r : Except Halt Unit} {data : Bytes}
    (asks : AsksFiles around args a settings)
    (counts : Writes
      (a.operands.mapM (countOperand around.tree.supply (settings.get .bufferSize)) >>= conclude)
      r data) :
    Writes (launch around none args) r data := by
  have named : a.operands.isEmpty = false := by simpa using asks.inhabited
  unfold launch launchOn
  apply (writes_start_of_prepared program asks.toPrepared).then
  dsimp only
  rw [named]
  exact counts

/-- An operand that can be read is shown with what is counted in it; any other is passed over. -/
theorem writes_countOperand_of_countsWith {size : Int} (noNul : .char '\x00' ∉ name)
    (printable : ∀ data, t.openRaw name = .ok data → name.Printable)
    (counts : ∀ data, t.openRaw name = .ok data → Tally.CountsWith size data) :
    Writes (countOperand t.supply (.int size) name) (.ok (tallyOf t size name))
      (shownRow t size name) := by
  cases opened : t.openRaw name with
  | ok data =>
      have tally : tallyOf t size name = some (.countedWith size data) := by
        rw [tallyOf, opened]; rfl
      rw [shownRow, tally]
      exact writes_countOperand
        (Tally.tally_countFile_of_countsWith opened (counts data opened)) (printable data opened)
  | error fault =>
      obtain ⟨cause, rfl⟩ := FileTree.openRaw_error noNul opened
      have none : tallyOf t size name = none := by rw [tallyOf, opened]; rfl
      rw [shownRow, none]
      exact writes_countOperand_of_refused opened

/-- With a buffer size with which every file is counted, a row is written for every file that can be
read, and one for all of them. -/
theorem AsksFiles.writes_launch {size : Int} (asks : AsksFiles around args a settings)
    (sized : settings.get .bufferSize = .int size)
    (counts : ∀ name ∈ a.operands, ∀ data, around.tree.openRaw name = .ok data →
      Tally.CountsWith size data) :
    Writes (launch around none args)
      (if a.operands.all fun name => (around.tree.openRaw name).isOk then .ok ()
        else .error (.exit 1))
      (a.operands.flatMap (shownRow around.tree size) ++
        shownTotal (a.operands.filterMap (tallyOf around.tree size))) := by
  have each : ∀ name ∈ a.operands, Writes (countOperand around.tree.supply (.int size) name)
      (.ok (tallyOf around.tree size name)) (shownRow around.tree size name) :=
    fun name member => writes_countOperand_of_countsWith (asks.no_nul name member)
      (asks.printable name member) (counts name member)
  have readable : (a.operands.map (tallyOf around.tree size)).all Option.isSome =
      a.operands.all fun name => (around.tree.openRaw name).isOk := by
    rw [List.all_map]
    congr 1
    funext name
    rw [Function.comp_apply, tallyOf]
    cases around.tree.openRaw name <;> rfl
  have tallies : (a.operands.map (tallyOf around.tree size)).filterMap id =
      a.operands.filterMap (tallyOf around.tree size) := by
    rw [List.filterMap_map, Function.id_comp]
  have ends := writes_conclude (a.operands.map (tallyOf around.tree size))
  rw [readable, tallies] at ends
  apply asks.writes_launch_of
  rw [sized]
  exact (writes_mapM each).bind ends

/-- With any other buffer size, the first file that is not counted ends the program. -/
theorem AsksFiles.writes_launch_of_unfit {size : Int} (asks : AsksFiles around args a settings)
    (sized : settings.get .bufferSize = .int size)
    (unfit : ∃ name ∈ a.operands, ∃ data, around.tree.openRaw name = .ok data ∧
      ¬ Tally.CountsWith size data) :
    ∃ before, before <+: a.operands ∧ Writes (launch around none args)
      (.error (.raised (sizeFault size))) (before.flatMap (shownRow around.tree size)) := by
  let count := countOperand around.tree.supply (.int size)
  have stops : ∀ name data, around.tree.openRaw name = .ok data → ¬ Tally.CountsWith size data →
      Writes (count name) (.error (.raised (sizeFault size))) [] :=
    fun name data opened unfit =>
      writes_countOperand_of_sizeFault (Tally.tally_countFile_of_unfit opened unfit)
  have each : ∀ name ∈ a.operands,
      (∃ tally, Writes (count name) (.ok tally) (shownRow around.tree size name)) ∨
      Writes (count name) (.error (.raised (sizeFault size))) [] := by
    intro name member
    by_cases counts : ∀ data, around.tree.openRaw name = .ok data → Tally.CountsWith size data
    · exact .inl ⟨_, writes_countOperand_of_countsWith (asks.no_nul name member)
        (asks.printable name member) counts⟩
    · simp only [not_forall] at counts
      obtain ⟨data, opened, unfit⟩ := counts
      exact .inr (stops name data opened unfit)
  obtain ⟨name, member, data, opened, unfit⟩ := unfit
  obtain ⟨before, earlier, written⟩ :=
    writes_mapM_stops each ⟨name, member, stops name data opened unfit⟩
  refine ⟨before, earlier, asks.writes_launch_of ?_⟩
  rw [sized]
  exact written.bind_error

/-! ## Other buffer sizes -/

/-- Positive buffer sizes with which the files are counted, of whatever settings, make no difference
to a run of the program. -/
theorem launch_congr {size size' : Int} (samePackages : around'.packages = around.packages)
    (sameTree : around'.tree = around.tree)
    (loads : Loads rules around args a settings) (loads' : Loads rules around' args a settings')
    (sameLog : ∀ verbose,
      LogSettings.ofSettings settings' verbose = LogSettings.ofSettings settings verbose)
    (inhabited : a.operands ≠ []) (sized : settings.get .bufferSize = .int size)
    (sized' : settings'.get .bufferSize = .int size') (positive : 0 < size) (positive' : 0 < size')
    (counts : ∀ name ∈ a.operands, ∀ data, around.tree.openRaw name = .ok data →
      Tally.CountsWith size data ∧ Tally.CountsWith size' data) :
    launch around' none args = launch around none args := by
  have same : ∀ name ∈ a.operands, countOperand around.tree.supply (.int size') name =
      countOperand around.tree.supply (.int size) name := by
    intro name member
    have counted : countFile around.tree name (.int size') =
        countFile around.tree name (.int size) := by
      cases opened : around.tree.openRaw name with
      | ok data =>
          obtain ⟨known, known'⟩ := counts name member data opened
          rw [Tally.countFile_of_positive opened positive known,
            Tally.countFile_of_positive opened positive' known']
      | error fault =>
          rw [Tally.countFile_of_unopened opened, Tally.countFile_of_unopened opened]
    simp only [countOperand, Tally.countOpened_supply, counted]
  have named : a.operands.isEmpty = false := by simpa using inhabited
  rw [launch, launch, launchOn, launchOn, sameTree]
  apply start_bind_congr program samePackages sameTree loads loads' sameLog
  dsimp only
  rw [named, sized, sized', mapM_congr same]
  simp only [Bool.false_eq_true, ↓reduceIte]

end WordCountProgram

end Bytewise

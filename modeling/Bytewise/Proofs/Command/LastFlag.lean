import Mathlib
import Bytewise.Package.Standard
import Bytewise.Proofs.Command.Checksum
import Bytewise.Proofs.Repetition

/-!
# Which of several flags is used

The algorithm of a checksum and the layout of a dump are chosen by flags. Every flag is looked at
once, where it was given first, and what is looked at later takes the place of what was chosen
before. So the flag that is used is the one that enters last, and that is the flag given last only
if no other was given for the first time behind its first occurrence (`last_flag_wins_iff`). Flags
that are not repeated are used as they are meant to be.

This does not depend on the settings, nor on whether a program stands alone; the settings are asked
only if no flag was given.
-/

namespace Bytewise

namespace Arguments

variable {α β : Type} [DecidableEq α] [DecidableEq β] {a : Arguments α} {meaning : α → Option β}

/-- What the flags of one kind stand for, in the order in which they were given. -/
def flags (a : Arguments α) (meaning : α → Option β) : List β :=
  a.given.filterMap fun option => meaning option.1

theorem lastOf_eq (injective : ∀ k k' b, meaning k = some b → meaning k' = some b → k = k') :
    a.lastOf meaning = (a.flags meaning).eraseDups.getLast? := by
  rw [lastOf, inOrder, filterMap_eraseDups injective, List.filterMap_map]
  rfl

end Arguments

/-- What is done is what flags choose: with something of its own if none was given, and otherwise
with the one that enters last. -/
structure ByFlags {β : Type} [DecidableEq β] (flags : List β) (done unflagged : Run Unit)
    (flagged : β → Run Unit) : Prop where
  none_given : flags = [] → done = unflagged
  some_given : ∀ last, flags.getLast? = some last → ∃ used, done = flagged used ∧
    EntersLast flags used ∧ (used = last ↔ EntersLast flags last)

theorem ByFlags.of_lastOf {α β : Type} [DecidableEq α] [DecidableEq β] {a : Arguments α}
    {meaning : α → Option β} {done unflagged : Run Unit} {flagged : β → Run Unit}
    (injective : ∀ k k' b, meaning k = some b → meaning k' = some b → k = k')
    (unchosen : a.lastOf meaning = none → done = unflagged)
    (chosen : ∀ used, a.lastOf meaning = some used → done = flagged used) :
    ByFlags (a.flags meaning) done unflagged flagged where
  none_given := by
    intro none
    apply unchosen
    rw [Arguments.lastOf_eq injective, none]
    rfl
  some_given := by
    intro last given
    have enters (used : β) : a.lastOf meaning = some used ↔ EntersLast (a.flags meaning) used := by
      rw [Arguments.lastOf_eq injective, getLast?_eraseDups_eq_some_iff]
    cases choice : a.lastOf meaning with
    | none =>
        rw [Arguments.lastOf_eq injective, List.getLast?_eq_none_iff] at choice
        have left : last ∈ (a.flags meaning).eraseDups :=
          List.mem_eraseDups.mpr (List.mem_of_getLast? given)
        rw [choice] at left
        cases left
    | some used =>
        refine ⟨used, chosen used choice, (enters used).mp choice, ?_⟩
        rw [← enters last, choice, Option.some_inj]

namespace ChecksumProgram

open Run

def launchWith (choose : Settings → Run Algorithm) (around : Surroundings)
    (above : Option Settings) (args : List Text) : Run Unit :=
  start program rules around above args >>= fun (a, settings) =>
    choose settings >>= work around.tree.supply around a settings

variable {around : Surroundings} {args : List Text} {a : Arguments (OptionKey Key)}

theorem launch_eq_launchWith {choose : Settings → Run Algorithm}
    (read : around.packages.commandLine.read (allRules rules) true args = .ok a)
    (chosen : ∀ settings, chooseAlgorithm a settings = choose settings) (above : Option Settings) :
    launch around above args = launchWith choose around above args := by
  apply start_bind_of_read read
  intro settings
  exact congrArg (· >>= work around.tree.supply around a settings) (chosen settings)

theorem chooseAlgorithm_of_none (unflagged : a.lastOf algorithmOf = none) (settings : Settings) :
    chooseAlgorithm a settings = configured settings := by
  rw [chooseAlgorithm, unflagged]

theorem chooseAlgorithm_of_some {algorithm : Algorithm}
    (flagged : a.lastOf algorithmOf = some algorithm) (settings : Settings) :
    chooseAlgorithm a settings = pure algorithm := by
  rw [chooseAlgorithm, flagged]

theorem algorithmOf_eq_some_iff {key : OptionKey Key} {algorithm : Algorithm} :
    algorithmOf key = some algorithm ↔ key = .own (.algorithm algorithm) := by
  unfold algorithmOf
  split <;> simp_all

end ChecksumProgram

namespace DumpProgram

open Run

/-- The program, if the dump is to be in a layout. -/
def launchIn (layout : Layout) (around : Surroundings) (above : Option Settings)
    (args : List Text) : Run Unit :=
  start program rules around above args >>= fun (a, settings) =>
    dumpOptionsIn layout a settings >>= work around.tree.supply a

theorem launch_eq_launchIn {around : Surroundings} {args : List Text}
    {a : Arguments (OptionKey Key)} {layout : Layout}
    (read : around.packages.commandLine.read (allRules rules) true args = .ok a)
    (chosen : (a.lastOf layoutOf).getD .canonical = layout) (above : Option Settings) :
    launch around above args = launchIn layout around above args := by
  apply start_bind_of_read read
  intro settings
  exact congrArg (dumpOptionsIn · a settings >>= work around.tree.supply a) chosen

theorem layoutOf_eq_some_iff {key : OptionKey Key} {layout : Layout} :
    layoutOf key = some layout ↔ key = .own (.layout layout) := by
  unfold layoutOf
  split <;> simp_all

end DumpProgram

/-- Of the algorithm flags and of the layout flags the one is used that enters last, and it is the
last one given exactly if no other was given for the first time behind its first occurrence. Without
flags the algorithm is the one that the settings name, and the layout is the canonical one. -/
theorem last_flag_wins_iff (around : Surroundings) (above : Option Settings) (args : List Text) :
    (∀ a, around.packages.commandLine.read (allRules ChecksumProgram.rules) true args = .ok a →
      ByFlags (a.flags ChecksumProgram.algorithmOf) (ChecksumProgram.launch around above args)
        (ChecksumProgram.launchWith ChecksumProgram.configured around above args)
        fun used => ChecksumProgram.launchWith (fun _ => pure used) around above args) ∧
    (∀ a, around.packages.commandLine.read (allRules DumpProgram.rules) true args = .ok a →
      ByFlags (a.flags DumpProgram.layoutOf) (DumpProgram.launch around above args)
        (DumpProgram.launchIn .canonical around above args)
        fun used => DumpProgram.launchIn used around above args) := by
  constructor
  · intro a read
    refine .of_lastOf (a := a) ?_ (fun unflagged => ?_) fun used flagged => ?_
    · intro k k' algorithm first second
      rw [ChecksumProgram.algorithmOf_eq_some_iff] at first second
      rw [first, second]
    · exact ChecksumProgram.launch_eq_launchWith read
        (ChecksumProgram.chooseAlgorithm_of_none unflagged) above
    · exact ChecksumProgram.launch_eq_launchWith read
        (ChecksumProgram.chooseAlgorithm_of_some flagged) above
  · intro a read
    refine .of_lastOf (a := a) ?_ (fun unflagged => ?_) fun used flagged => ?_
    · intro k k' layout first second
      rw [DumpProgram.layoutOf_eq_some_iff] at first second
      rw [first, second]
    · exact DumpProgram.launch_eq_launchIn read (by rw [unflagged]; rfl) above
    · exact DumpProgram.launch_eq_launchIn read (by rw [flagged]; rfl) above

/-- A flag that is repeated is used if no other was given in between. -/
theorem last_flag_wins_iff_repeated :
    let around : Surroundings := ⟨.standard, [("a", .file {} (Text.encode "x"))], []⟩
    ChecksumProgram.launch around none ["-c", "-a", "--adler32", "a"] =
        ChecksumProgram.launchWith (fun _ => pure .adler32) around none
          ["-c", "-a", "--adler32", "a"] ∧
      DumpProgram.launch around none ["-v", "a"] =
        DumpProgram.launchIn .canonical around none ["-v", "a"] := by
  intro around
  have algorithms := (last_flag_wins_iff around none ["-c", "-a", "--adler32", "a"]).1 _ rfl
  have layouts := (last_flag_wins_iff around none ["-v", "a"]).2 _ rfl
  obtain ⟨used, done, -, wins⟩ := algorithms.some_given .adler32 (by decide)
  obtain rfl := wins.mpr (by decide)
  exact ⟨done, layouts.none_given (by decide)⟩

/-- A flag that was given before another and then once more is not used, though it is the last. -/
theorem repeated_flag_loses :
    let around : Surroundings := ⟨.standard, [("a", .file {} (Text.encode "x"))], []⟩
    let a : Arguments (OptionKey ChecksumProgram.Key) :=
      ⟨[(.own (.algorithm .adler32), none), (.own (.algorithm .crc32), none),
        (.own (.algorithm .adler32), none)], ["a"]⟩
    around.packages.commandLine.read (allRules ChecksumProgram.rules) true ["-a", "-c", "-a", "a"] =
        .ok a ∧
      (a.flags ChecksumProgram.algorithmOf).getLast? = some .adler32 ∧
      Algorithm.adler32.checksum (Text.encode "x") = 0x00790079 ∧
      ((Program.tool .checksum).run around (.ofBytes []) ["-a", "-c", "-a", "a"]).out =
        Text.encode "8cdc1683  a\n" := by
  intro around a
  have read : around.packages.commandLine.read (allRules ChecksumProgram.rules) true
    ["-a", "-c", "-a", "a"] = .ok a := rfl
  let files : List (Text × Bytes) := [("a", Text.encode "x")]
  have asks : ChecksumProgram.AsksDigests around ["-a", "-c", "-a", "a"] .crc32
      (files.map (·.1)) :=
    ⟨a, ⟨read, rfl, rfl, rfl⟩, by decide, rfl, rfl, rfl⟩
  have opened : around.tree.openRaw "a" = .ok (Text.encode "x") := by cbv
  have written : ((Program.tool .checksum).launch around ["-a", "-c", "-a", "a"]).Writes _ _ :=
    ChecksumProgram.writes_launch_digests (Surroundings.untouched_nil _ _) asks
      (List.cons_ne_nil _ _) (List.forall_mem_singleton.mpr (by decide))
      (List.forall_mem_singleton.mpr (Text.printable_ofChars _))
      (List.forall_mem_singleton.mpr opened)
  refine ⟨read, by decide, by decide, ?_⟩
  rw [(Program.run_of_writes rfl written).1]
  cbv

end Bytewise

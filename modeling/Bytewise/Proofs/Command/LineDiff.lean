import Bytewise.Package.Standard
import Bytewise.Proofs.Command.Start
import Bytewise.Proofs.FileTree.Names
import Bytewise.Proofs.LineDiff.Sameness
import Mathlib

/-!
# When two files are the same

Two files are reported as the same exactly if they have as many lines and the same normal form
(`reportsSame_iff`), whatever the files are called. The exit status of the comparison program tells
this: it is zero if they are the same, one if both can be read and differ, and two if one of them
cannot be read (`LineDiffProgram.AsksTwo.status_eq`). The program may be run by itself or by the
umbrella program.
-/

namespace Bytewise

/-! ## Comparing files -/

def FileTree.Readable (t : FileTree) (name : Text) : Prop := ∃ data, t.openRaw name = .ok data

/-- Comparing two files finds no difference. -/
def ReportsSame (t : FileTree) (o : DiffOptions) (old new : Text) : Prop :=
  ∃ c, compareFiles t o old new = .ok c ∧ c.same = true

variable {t : FileTree} {o : DiffOptions} {old new : Text} {a b : Bytes}

/-- The first file that cannot be read is reported. -/
theorem compareFiles_eq (t : FileTree) (o : DiffOptions) (old new : Text) :
    compareFiles t o old new = match t.openRaw old, t.openRaw new with
      | .ok a, .ok b => .ok ⟨diffLines o (cutLines a) (cutLines b), old, new⟩
      | .error fault, _ => .error (fault.asUnreadable old)
      | .ok _, .error fault => .error (fault.asUnreadable new) := by
  rw [compareFiles, FileTree.openFile, FileTree.openFile]
  cases t.openRaw old <;> cases t.openRaw new <;> rfl

theorem compareFiles_of_opened (opened : t.openRaw old = .ok a) (opened' : t.openRaw new = .ok b) :
    compareFiles t o old new = .ok ⟨diffLines o (cutLines a) (cutLines b), old, new⟩ := by
  rw [compareFiles_eq, opened, opened']

/-- Unless both files can be read, the comparison fails as the program expects it to. -/
theorem compareFiles_of_not_readable (noNul : .char '\x00' ∉ old) (noNul' : .char '\x00' ∉ new)
    (refused : ¬ (t.Readable old ∧ t.Readable new)) :
    ∃ name reason, compareFiles t o old new = .error (.unreadable name reason) := by
  rw [compareFiles_eq]
  split
  next a b opened opened' => exact absurd ⟨⟨a, opened⟩, b, opened'⟩ refused
  next fault failed =>
    obtain ⟨cause, rfl⟩ := FileTree.openRaw_error noNul failed
    exact ⟨old, cause.reason, rfl⟩
  next a fault opened failed =>
    obtain ⟨cause, rfl⟩ := FileTree.openRaw_error noNul' failed
    exact ⟨new, cause.reason, rfl⟩

theorem Comparison.same_cutLines_iff (old new : Text) :
    (Comparison.mk (diffLines o (cutLines a) (cutLines b)) old new).same = true ↔
      lineCount a = lineCount b ∧ o.normalize a = o.normalize b := by
  rw [same_iff, diffLines_eq_nil_iff, DiffOptions.map_normalize_cutLines_iff]

/-- What makes two files the same. -/
theorem reportsSame_iff : ReportsSame t o old new ↔
    ∃ a b, t.openRaw old = .ok a ∧ t.openRaw new = .ok b ∧
      lineCount a = lineCount b ∧ o.normalize a = o.normalize b := by
  constructor
  · rintro ⟨c, compared, same⟩
    rw [compareFiles_eq] at compared
    split at compared
    next a b opened opened' =>
      cases compared
      exact ⟨a, b, opened, opened', (Comparison.same_cutLines_iff old new).mp same⟩
    next => cases compared
    next => cases compared
  · rintro ⟨a, b, opened, opened', agree⟩
    exact ⟨_, compareFiles_of_opened opened opened',
      (Comparison.same_cutLines_iff old new).mpr agree⟩

namespace ReportsSame

theorem refl (readable : t.Readable old) : ReportsSame t o old old := by
  obtain ⟨a, opened⟩ := readable
  exact reportsSame_iff.mpr ⟨a, a, opened, opened, rfl, rfl⟩

theorem symm (same : ReportsSame t o old new) : ReportsSame t o new old := by
  obtain ⟨a, b, opened, opened', counts, forms⟩ := reportsSame_iff.mp same
  exact reportsSame_iff.mpr ⟨b, a, opened', opened, counts.symm, forms.symm⟩

theorem trans {other : Text} (same : ReportsSame t o old new) (same' : ReportsSame t o new other) :
    ReportsSame t o old other := by
  obtain ⟨a, b, opened, opened', counts, forms⟩ := reportsSame_iff.mp same
  obtain ⟨b', c, again, opened'', counts', forms'⟩ := reportsSame_iff.mp same'
  rw [opened'] at again
  cases again
  exact reportsSame_iff.mpr ⟨a, c, opened, opened'', counts.trans counts', forms.trans forms'⟩

theorem readable (same : ReportsSame t o old new) : t.Readable old ∧ t.Readable new := by
  obtain ⟨a, b, opened, opened', -⟩ := reportsSame_iff.mp same
  exact ⟨⟨a, opened⟩, b, opened'⟩

end ReportsSame

/-! ## The exit status -/

namespace LineDiffProgram

open Run

/-- Which differences a command line leaves out of account. -/
def requested (a : Arguments (OptionKey Key)) : DiffOptions :=
  ⟨a.has (.own .ignoreCase), a.has (.own .ignoreBlanks)⟩

/-- The command lines that get to the work of the program: its own, and those of the umbrella
program that select it. -/
inductive Reaches (around : Surroundings) :
    Program → List Text → Arguments (OptionKey Key) → Prop
  | alone {args : List Text} {a : Arguments (OptionKey Key)} {settings : Settings}
      (prepared : Prepared rules around args a settings) :
      Reaches around (.tool .lineDiff) args a
  | below {args rest : List Text} {a : Arguments (OptionKey Key)}
      {outer : Arguments (OptionKey Empty)} {above settings : Settings}
      (selects : Umbrella.Selects around args outer .lineDiff rest above)
      (prepared : PreparedBelow rules around above rest a settings) :
      Reaches around .umbrella args a

/-- A command line that has two files compared, by names that the system can be asked for. -/
structure AsksTwo (around : Surroundings) (p : Program) (args : List Text)
    (a : Arguments (OptionKey Key)) (old new : Text) : Prop where
  reaches : Reaches around p args a
  two : a.operands = [old, new]
  no_nul : ∀ name ∈ a.operands, .char '\x00' ∉ name

variable {around : Surroundings} {p : Program} {args : List Text} {a : Arguments (OptionKey Key)}
  {brief : Bool}

/-- Two files are compared once the program has got to its work. -/
theorem writes_launch_of_started {above : Option Settings} {settings : Settings}
    {r : Except Halt Unit} {data : Bytes}
    (started : Writes (start program rules around above args) (.ok (a, settings)) [])
    (two : a.operands = [old, new])
    (works : Writes (compare around.tree (requested a) (a.has (.own .brief)) old new) r data) :
    Writes (launch around above args) r data := by
  apply started.then
  dsimp only
  rw [two]
  exact works

theorem AsksTwo.writes_launch {r : Except Halt Unit} {data : Bytes}
    (asks : AsksTwo around p args a old new)
    (works : Writes (compare around.tree (requested a) (a.has (.own .brief)) old new) r data) :
    Writes (p.launch around args) r data := by
  cases asks.reaches with
  | alone prepared =>
      exact writes_launch_of_started (writes_start_of_prepared program prepared) asks.two works
  | below selects prepared =>
      apply Umbrella.writes_launch selects
      exact writes_launch_of_started (writes_start_of_preparedBelow program prepared) asks.two
        works

/-- A comparison is reported, unless the files differ and their names cannot be written. -/
theorem writes_report (c : Comparison) (brief : Bool) :
    (∃ data, Writes (report c brief) (.ok ()) data) ∨
      c.same = false ∧ Writes (report c brief) (.error (.raised .unencodable)) [] := by
  cases brief with
  | false => exact .inl ⟨_, writes_emit c.text⟩
  | true =>
      by_cases printable : c.brief.Printable
      · exact .inl ⟨_, writes_print printable⟩
      · refine .inr ⟨?_, writes_print_stray printable⟩
        rw [← Bool.not_eq_true, ← c.brief_eq_nil_iff]
        intro nothing
        exact printable (nothing ▸ Text.printable_ofChars [])

/-- Files that can be read end the program with zero if they are the same, and with one if not. The
report that they differ may fail, but then the fault that ends the program has status one as well.
-/
theorem writes_compare_of_ok {c : Comparison} (compared : compareFiles t o old new = .ok c) :
    ∃ halt data, Writes (compare t o brief old new) (.error halt) data ∧
      halt.status = if c.same then 0 else 1 := by
  rw [compare, compared]
  dsimp only
  obtain ⟨data, reported⟩ | ⟨differ, fails⟩ := writes_report c brief
  · refine ⟨.exit (if c.same then 0 else 1), data, ?_, rfl⟩
    exact (writes_record _).then (reported.bind_nil (writes_throw _))
  · refine ⟨.raised .unencodable, [], (writes_record _).then fails.bind_error, ?_⟩
    rw [differ]
    rfl

theorem writes_compare_of_unreadable {name reason : Text}
    (refused : compareFiles t o old new = .error (.unreadable name reason)) :
    Writes (compare t o brief old new) (.error (.exit trouble)) [] := by
  rw [compare, refused]
  exact (writes_complain _ _).then (writes_throw _)

/-- The exit status of a comparison. -/
theorem AsksTwo.status_eq (asks : AsksTwo around p args a old new) (stdin : Stream) :
    (ReportsSame around.tree (requested a) old new →
      (p.run around stdin args).status = 0) ∧
    (around.tree.Readable old ∧ around.tree.Readable new →
      ¬ ReportsSame around.tree (requested a) old new → (p.run around stdin args).status = 1) ∧
    (¬ (around.tree.Readable old ∧ around.tree.Readable new) →
      (p.run around stdin args).status = 2) := by
  have ends {halt : Halt} {data : Bytes}
      (works : Writes (compare around.tree (requested a) (a.has (.own .brief)) old new)
        (.error halt) data) : (p.run around stdin args).status = halt.status := by
    rw [Outcome.status_eq, (Program.run_of_writes rfl (asks.writes_launch works)).2]
    rfl
  refine ⟨fun same => ?_, fun readable differ => ?_, fun refused => ?_⟩
  · obtain ⟨c, compared, same⟩ := same
    obtain ⟨halt, data, works, status⟩ := writes_compare_of_ok compared
    rw [ends works, status, same]
    rfl
  · obtain ⟨⟨x, opened⟩, y, opened'⟩ := readable
    have compared := compareFiles_of_opened (o := requested a) opened opened'
    obtain ⟨halt, data, works, status⟩ := writes_compare_of_ok compared
    rw [ends works, status, if_neg]
    exact fun same => differ ⟨_, compared, same⟩
  · have noNul := asks.no_nul
    rw [asks.two, List.forall_mem_cons, List.forall_mem_singleton] at noNul
    obtain ⟨name, reason, unreadable⟩ := compareFiles_of_not_readable noNul.1 noNul.2 refused
    exact ends (writes_compare_of_unreadable unreadable)

/-- Two files are the same for a comparison exactly if they have as many lines and the same normal
form, and without options exactly if they are equal; both reports are empty exactly for such files.
For files that can be read this is an equivalence relation. The exit status of the program, run by
itself or by the umbrella program, is zero if the files are the same, one if both can be read and
are not the same, and two if one of them cannot be read. -/
theorem sameness_decided (around : Surroundings) :
    (∀ o old new a b, around.tree.openRaw old = .ok a → around.tree.openRaw new = .ok b →
      ∃ c, compareFiles around.tree o old new = .ok c ∧
        (c.same = true ↔ lineCount a = lineCount b ∧ o.normalize a = o.normalize b) ∧
        (o = {} → (c.same = true ↔ a = b)) ∧
        (c.text = [] ↔ c.same = true) ∧ (c.brief = [] ↔ c.same = true)) ∧
    (∀ o, (∀ name, around.tree.Readable name → ReportsSame around.tree o name name) ∧
      (∀ old new, ReportsSame around.tree o old new → ReportsSame around.tree o new old) ∧
      ∀ old new other, ReportsSame around.tree o old new → ReportsSame around.tree o new other →
        ReportsSame around.tree o old other) ∧
    ∀ p args a old new stdin, AsksTwo around p args a old new →
      ((p.run around stdin args).status = 0 ↔
        ReportsSame around.tree (requested a) old new) ∧
      ((p.run around stdin args).status = 1 ↔
        (around.tree.Readable old ∧ around.tree.Readable new) ∧
          ¬ ReportsSame around.tree (requested a) old new) ∧
      ((p.run around stdin args).status = 2 ↔
        ¬ around.tree.Readable old ∨ ¬ around.tree.Readable new) := by
  refine ⟨?_, ?_, ?_⟩
  · intro o old new a b opened opened'
    refine ⟨_, compareFiles_of_opened opened opened', Comparison.same_cutLines_iff old new, ?_,
      Comparison.text_eq_nil_iff _, Comparison.brief_eq_nil_iff _⟩
    rintro rfl
    rw [Comparison.same_cutLines_iff, normalize_plain, normalize_plain]
    exact ⟨And.right, fun equal => ⟨congrArg lineCount equal, equal⟩⟩
  · intro o
    exact ⟨fun _ => .refl, fun _ _ => .symm, fun _ _ _ => .trans⟩
  · intro p args a old new stdin asks
    obtain ⟨zero, one, two⟩ := asks.status_eq stdin
    by_cases readable : around.tree.Readable old ∧ around.tree.Readable new
    · by_cases same : ReportsSame around.tree (requested a) old new
      · simp [zero same, same, readable]
      · simp [one readable same, same, readable]
    · have differ : ¬ ReportsSame around.tree (requested a) old new :=
        fun same => readable same.readable
      simpa [two readable, differ, readable] using Classical.not_and_iff_not_or_not.mp readable

/-- Two files that differ by a space and by the case of a letter: they are the same, either way
round, if both are left out of account, which the umbrella program can be asked for as well, and
otherwise they are not. A third name leads to no file. -/
theorem sameness_decided_twoFiles :
    let tree : FileTree := [("a", .file {} [0x78, 0x20, 0x0A]), ("b", .file {} [0x58, 0x0A])]
    let around : Surroundings := ⟨.standard, tree, []⟩
    (∃ c, compareFiles tree ⟨true, true⟩ "a" "b" = .ok c ∧ c.text = []) ∧
      ReportsSame tree ⟨true, true⟩ "b" "a" ∧
      ((Program.tool .lineDiff).run around (.ofBytes []) ["-iw", "a", "b"]).status = 0 ∧
      (Program.umbrella.run around (.ofBytes []) ["diff", "-iw", "a", "b"]).status = 0 ∧
      ((Program.tool .lineDiff).run around (.ofBytes []) ["-w", "a", "b"]).status = 1 ∧
      ((Program.tool .lineDiff).run around (.ofBytes []) ["a", "c"]).status = 2 := by
  intro tree around
  have opened : tree.openRaw "a" = .ok [0x78, 0x20, 0x0A] := by cbv
  have opened' : tree.openRaw "b" = .ok [0x58, 0x0A] := by cbv
  have missing : tree.openRaw "c" = .error (.system .notFound) := by cbv
  have untouched : around.Untouched := Surroundings.untouched_nil _ tree
  obtain ⟨compares, relates, decides⟩ := sameness_decided around
  obtain ⟨c, compared, same_iff, -, text_iff, -⟩ := compares ⟨true, true⟩ _ _ _ _ opened opened'
  have same : c.same = true := same_iff.mpr (by decide)
  have reported : ReportsSame tree ⟨true, true⟩ "a" "b" := ⟨c, compared, same⟩
  have both : AsksTwo around (.tool .lineDiff) ["-iw", "a", "b"]
      ⟨[(.own .ignoreCase, none), (.own .ignoreBlanks, none)], ["a", "b"]⟩ "a" "b" :=
    ⟨.alone (Plain.prepared ⟨rfl, rfl, rfl, rfl⟩ untouched (accepted_of_flags (by decide))), rfl,
      by decide⟩
  have selects : Umbrella.Selects around ["diff", "-iw", "a", "b"]
      ⟨[], ["diff", "-iw", "a", "b"]⟩ .lineDiff ["-iw", "a", "b"] .default :=
    ⟨⟨rfl, rfl, rfl, accepted_of_flags (by decide)⟩, by decide, rfl, untouched,
      LogSettings.exists_ofSettings_default _⟩
  have below : AsksTwo around .umbrella ["diff", "-iw", "a", "b"]
      ⟨[(.own .ignoreCase, none), (.own .ignoreBlanks, none)], ["a", "b"]⟩ "a" "b" :=
    ⟨.below selects (Plain.preparedBelow ⟨rfl, rfl, rfl, rfl⟩ (accepted_of_flags (by decide))), rfl,
      by decide⟩
  have blanks : AsksTwo around (.tool .lineDiff) ["-w", "a", "b"]
      ⟨[(.own .ignoreBlanks, none)], ["a", "b"]⟩ "a" "b" :=
    ⟨.alone (Plain.prepared ⟨rfl, rfl, rfl, rfl⟩ untouched (accepted_of_flags (by decide))), rfl,
      by decide⟩
  have plain : AsksTwo around (.tool .lineDiff) ["a", "c"] ⟨[], ["a", "c"]⟩ "a" "c" :=
    ⟨.alone (Plain.prepared ⟨rfl, rfl, rfl, rfl⟩ untouched (accepted_of_flags (by decide))), rfl,
      by decide⟩
  refine ⟨⟨c, compared, text_iff.mpr same⟩, (relates _).2.1 _ _ reported, ?_, ?_, ?_, ?_⟩
  · exact (decides _ _ _ _ _ _ both).1.mpr reported
  · exact (decides _ _ _ _ _ _ below).1.mpr reported
  · refine (decides _ _ _ _ _ _ blanks).2.1.mpr ⟨⟨⟨_, opened⟩, _, opened'⟩, ?_⟩
    intro same
    obtain ⟨x, y, found, found', -, forms⟩ := reportsSame_iff.mp same
    cases opened.symm.trans found
    cases opened'.symm.trans found'
    exact absurd forms (by decide)
  · refine (decides _ _ _ _ _ _ plain).2.2.mpr (.inr ?_)
    rintro ⟨data, found⟩
    cases missing.symm.trans found

end LineDiffProgram

end Bytewise

import Bytewise.LineDiff

/-!
# The hunks of a comparison

Two lists of lines are compared position by position, and a position past the end of a list has no
line there. With that the comparison has one rule for all positions: there is a hunk where the
normal forms differ as optional lines (`Hunk.at?`), because a missing line has no normal form. The
hunks are those of the positions in order (`diffLines_eq`), and everything else follows from this
equation: their numbers, their kinds, what exchanging the two lists does, and that the second list
can be rebuilt from the first one and the hunks.
-/

namespace Bytewise

def Change.swap : Change → Change
  | .added new => .deleted new
  | .deleted old => .added old
  | .changed old new => .changed new old

def Hunk.swap (h : Hunk) : Hunk := ⟨h.number, h.change.swap⟩

/-- The hunk of a line that one of the lists lacks, or that has two normal forms. -/
def Hunk.at? (o : DiffOptions) (number : Nat) (old new : Option Bytes) : Option Hunk :=
  if old.map o.normalize = new.map o.normalize then none
  else (Change.of? old new).map (Hunk.mk number)

namespace Change

theorem of?_eq_some_iff {old new : Option Bytes} {c : Change} :
    of? old new = some c ↔ c.old? = old ∧ c.new? = new := by
  cases old <;> cases new <;> cases c <;> simp [of?, old?, new?, eq_comm]

theorem of?_swap (old new : Option Bytes) : of? new old = (of? old new).map swap := by
  cases old <;> cases new <;> rfl

end Change

/-! ## The hunks by position -/

theorem diffFrom_done (o : DiffOptions) (number : Nat) (done : List Hunk) (old new : List Bytes) :
    diffFrom o number done old new = done.reverse ++ diffFrom o number [] old new := by
  induction old generalizing number done new with
  | nil =>
      induction new generalizing number done with
      | nil => simp [diffFrom]
      | cons b new ih =>
          rw [diffFrom, diffFrom, ih, ih _ [_]]
          simp
  | cons a old ih =>
      cases new with
      | nil =>
          rw [diffFrom, diffFrom, ih, ih _ [_]]
          simp
      | cons b new =>
          rw [diffFrom, diffFrom]
          split
          · exact ih _ done new
          · rw [ih, ih _ [_]]
            simp

/-- One step of the comparison deals with the first lines, or with what is left of them. -/
theorem diffFrom_step (o : DiffOptions) (number : Nat) (old new : List Bytes) :
    diffFrom o number [] old new =
      (Hunk.at? o number old.head? new.head?).toList ++
        diffFrom o (number + 1) [] old.tail new.tail := by
  cases old with
  | nil =>
      cases new with
      | nil => simp [diffFrom, Hunk.at?]
      | cons b new =>
          rw [diffFrom, diffFrom_done]
          rfl
  | cons a old =>
      cases new with
      | nil =>
          rw [diffFrom, diffFrom_done]
          rfl
      | cons b new =>
          rw [diffFrom]
          by_cases same : o.normalize a = o.normalize b
          · simp [same, Hunk.at?]
          · rw [if_neg same, diffFrom_done]
            simp [same, Hunk.at?, Change.of?]

theorem diffFrom_eq (o : DiffOptions) (number count : Nat) (old new : List Bytes)
    (enough : max old.length new.length = count) :
    diffFrom o number [] old new =
      (List.range count).filterMap fun i => Hunk.at? o (number + i) old[i]? new[i]? := by
  induction count generalizing number old new with
  | zero =>
      obtain rfl : old = [] := List.length_eq_zero_iff.mp (by omega)
      obtain rfl : new = [] := List.length_eq_zero_iff.mp (by omega)
      simp [diffFrom]
  | succ count ih =>
      have fewer : max old.tail.length new.tail.length = count := by
        rw [List.length_tail, List.length_tail]
        omega
      rw [diffFrom_step, ih (number + 1) old.tail new.tail fewer, List.range_succ_eq_map]
      simp only [List.filterMap_cons, List.filterMap_map, List.head?_eq_getElem?,
        List.getElem?_tail, Nat.add_zero]
      have shifted : ∀ i, number + 1 + i = number + (i + 1) := by omega
      simp only [shifted]
      cases Hunk.at? o number old[0]? new[0]? <;> rfl

/-- The hunks are those of the positions, in order. -/
theorem diffLines_eq (o : DiffOptions) (old new : List Bytes) :
    diffLines o old new = (List.range (max old.length new.length)).filterMap
      fun i => Hunk.at? o (1 + i) old[i]? new[i]? :=
  diffFrom_eq o 1 _ old new rfl

/-! ## Numbers, sides and kinds -/

/-- The lists differ at a position, counted from zero: one of them has no line there, or the normal
forms of the two lines differ. -/
def DiffOptions.DiffersAt (o : DiffOptions) (old new : List Bytes) (i : Nat) : Prop :=
  i < max old.length new.length ∧
    (old.length ≤ i ∨ new.length ≤ i ∨ old[i]?.map o.normalize ≠ new[i]?.map o.normalize)

variable {o : DiffOptions} {old new : List Bytes} {h : Hunk} {i : Nat}

theorem Hunk.at?_eq_some_iff {number : Nat} {a b : Option Bytes} :
    Hunk.at? o number a b = some h ↔ a.map o.normalize ≠ b.map o.normalize ∧
      h.number = number ∧ h.change.old? = a ∧ h.change.new? = b := by
  obtain ⟨n, c⟩ := h
  rw [Hunk.at?]
  split
  next same => simp [same]
  next differ =>
    rw [Option.map_eq_some_iff]
    constructor
    · rintro ⟨c', changed, made⟩
      cases made
      exact ⟨differ, rfl, Change.of?_eq_some_iff.mp changed⟩
    · rintro ⟨-, rfl, sides⟩
      exact ⟨c, Change.of?_eq_some_iff.mpr sides, rfl⟩

theorem mem_diffLines_iff : h ∈ diffLines o old new ↔
    ∃ i, i < max old.length new.length ∧ Hunk.at? o (1 + i) old[i]? new[i]? = some h := by
  simp [diffLines_eq]

theorem number_of_at? {number : Nat} {a b : Option Bytes} (found : Hunk.at? o number a b = some h) :
    h.number = number :=
  (Hunk.at?_eq_some_iff.mp found).2.1

/-- The numbers increase. -/
theorem pairwise_diffLines (o : DiffOptions) (old new : List Bytes) :
    (diffLines o old new).Pairwise fun h h' => h.number < h'.number := by
  rw [diffLines_eq, List.pairwise_filterMap]
  apply List.Pairwise.imp _ List.pairwise_lt_range
  intro i j before h found h' found'
  rw [number_of_at? found, number_of_at? found']
  omega

/-- A missing line has no normal form, so one comparison covers all three ways to differ. -/
theorem DiffOptions.differsAt_iff :
    o.DiffersAt old new i ↔ old[i]?.map o.normalize ≠ new[i]?.map o.normalize := by
  constructor
  · rintro ⟨within, ended | ended | differ⟩
    · have more : i < new.length := by omega
      simp [List.getElem?_eq_none ended, List.getElem?_eq_getElem more]
    · have more : i < old.length := by omega
      simp [List.getElem?_eq_none ended, List.getElem?_eq_getElem more]
    · exact differ
  · intro differ
    refine ⟨?_, .inr (.inr differ)⟩
    apply Nat.lt_of_not_le
    intro past
    have ended : old.length ≤ i ∧ new.length ≤ i := by omega
    exact differ (by rw [List.getElem?_eq_none ended.1, List.getElem?_eq_none ended.2])

/-- There is a hunk for every position at which the lists differ, and for no other. -/
theorem exists_mem_diffLines_iff :
    (∃ h ∈ diffLines o old new, h.number = i + 1) ↔ o.DiffersAt old new i := by
  constructor
  · rintro ⟨h, member, number⟩
    obtain ⟨j, -, found⟩ := mem_diffLines_iff.mp member
    obtain ⟨differ, numbered, -⟩ := Hunk.at?_eq_some_iff.mp found
    obtain rfl : i = j := by omega
    exact DiffOptions.differsAt_iff.mpr differ
  · intro differs
    have differ := DiffOptions.differsAt_iff.mp differs
    have hunk : ∃ h, Hunk.at? o (1 + i) old[i]? new[i]? = some h := by
      rw [Hunk.at?, if_neg differ]
      revert differ
      cases old[i]? <;> cases new[i]? <;> simp [Change.of?]
    obtain ⟨h, found⟩ := hunk
    refine ⟨h, mem_diffLines_iff.mpr ⟨i, differs.1, found⟩, ?_⟩
    rw [number_of_at? found]
    omega

/-- The sides of a hunk are the lines at its position. -/
theorem sides_of_mem_diffLines (member : h ∈ diffLines o old new) :
    ∃ i : Nat, h.number = i + 1 ∧ h.change.old? = old[i]? ∧ h.change.new? = new[i]? := by
  obtain ⟨i, -, found⟩ := mem_diffLines_iff.mp member
  obtain ⟨-, number, sides⟩ := Hunk.at?_eq_some_iff.mp found
  exact ⟨i, by omega, sides⟩

namespace Change

theorem kind_of_both {c : Change} {a b : Bytes} (before : c.old? = some a)
    (after : c.new? = some b) : c.kind = 'c' := by
  cases c with
  | added => cases before
  | deleted => cases after
  | changed => rfl

theorem kind_of_old?_none {c : Change} (missing : c.old? = none) : c.kind = 'a' := by
  cases c with
  | added => rfl
  | deleted => cases missing
  | changed => cases missing

theorem kind_of_new?_none {c : Change} (missing : c.new? = none) : c.kind = 'd' := by
  cases c with
  | added => cases missing
  | deleted => rfl
  | changed => cases missing

end Change

/-- Lines that both lists have are changed, and behind the shorter one they are added or deleted. -/
theorem kind_of_mem_diffLines (member : h ∈ diffLines o old new) :
    (h.number ≤ old.length ∧ h.number ≤ new.length → h.change.kind = 'c') ∧
      (old.length < h.number → h.change.kind = 'a') ∧
      (new.length < h.number → h.change.kind = 'd') := by
  obtain ⟨i, number, before, after⟩ := sides_of_mem_diffLines member
  refine ⟨fun within => ?_, fun past => ?_, fun past => ?_⟩
  · rw [List.getElem?_eq_getElem (by omega)] at before after
    exact Change.kind_of_both before after
  · rw [List.getElem?_eq_none (by omega)] at before
    exact Change.kind_of_old?_none before
  · rw [List.getElem?_eq_none (by omega)] at after
    exact Change.kind_of_new?_none after

/-! ## Exchanging the lists -/

theorem Hunk.at?_swap (o : DiffOptions) (number : Nat) (a b : Option Bytes) :
    Hunk.at? o number b a = (Hunk.at? o number a b).map Hunk.swap := by
  rw [Hunk.at?, Hunk.at?, Change.of?_swap]
  by_cases same : a.map o.normalize = b.map o.normalize
  · simp [same]
  · rw [if_neg same, if_neg (Ne.symm same), Option.map_map, Option.map_map]
    rfl

theorem diffLines_swap (o : DiffOptions) (old new : List Bytes) :
    diffLines o new old = (diffLines o old new).map Hunk.swap := by
  rw [diffLines_eq, diffLines_eq, List.map_filterMap, Nat.max_comm]
  simp only [← Hunk.at?_swap]

/-! ## Rebuilding a list -/

/-- The line that a hunk adds behind the end of the first list. -/
def Hunk.appended? (h : Hunk) : Option Bytes :=
  match h.change with
  | .added new => some new
  | _ => none

/-- The line that stands at a position when the second sides of hunks are written over the lines. -/
def writtenLine? (hunks : List Hunk) (lines : List Bytes) (i : Nat) : Option Bytes :=
  match hunks.find? fun h : Hunk => h.number = i + 1 with
  | some h => h.change.new?
  | none => lines[i]?

/-- Write the second sides of hunks over the lines at their positions: a line of which there is no
second side is dropped, and added lines come behind the others. -/
def patch (hunks : List Hunk) (lines : List Bytes) : List Bytes :=
  (List.range lines.length).filterMap (writtenLine? hunks lines) ++
    hunks.filterMap Hunk.appended?

/-- A hunk is found by its number. -/
theorem find?_diffLines (o : DiffOptions) (old new : List Bytes) (i : Nat) :
    (diffLines o old new).find? (fun h : Hunk => h.number = i + 1) =
      Hunk.at? o (1 + i) old[i]? new[i]? := by
  have sound : ∀ h, (diffLines o old new).find? (fun h : Hunk => h.number = i + 1) = some h →
      Hunk.at? o (1 + i) old[i]? new[i]? = some h := by
    intro h found
    obtain ⟨j, -, hunk⟩ := mem_diffLines_iff.mp (List.mem_of_find?_eq_some found)
    have number := number_of_at? hunk
    have asked : h.number = i + 1 := by simpa using List.find?_some found
    obtain rfl : j = i := by omega
    exact hunk
  cases found : (diffLines o old new).find? (fun h : Hunk => h.number = i + 1) with
  | some h => exact (sound h found).symm
  | none =>
      cases hunk : Hunk.at? o (1 + i) old[i]? new[i]? with
      | none => rfl
      | some h =>
          have differs := DiffOptions.differsAt_iff.mpr (Hunk.at?_eq_some_iff.mp hunk).1
          obtain ⟨h', member, number⟩ := exists_mem_diffLines_iff.mpr differs
          simpa [number] using List.find?_eq_none.mp found h' member

theorem normalize_plain (line : Bytes) : DiffOptions.normalize {} line = line := rfl

/-- With lines compared as they are, every position gets its line of the second list. -/
theorem writtenLine?_diffLines (old new : List Bytes) (i : Nat) :
    writtenLine? (diffLines {} old new) old i = new[i]? := by
  rw [writtenLine?, find?_diffLines]
  cases hunk : Hunk.at? {} (1 + i) old[i]? new[i]? with
  | some h => exact (Hunk.at?_eq_some_iff.mp hunk).2.2.2
  | none =>
      -- There is no hunk, so the lines are equal.
      revert hunk
      cases old[i]? <;> cases new[i]? <;> simp [Hunk.at?, Change.of?, normalize_plain]

/-- Behind the end of the first list every line of the second one is appended. -/
theorem appended?_at? (o : DiffOptions) (number : Nat) (a b : Option Bytes) :
    (Hunk.at? o number a b).bind Hunk.appended? = if a = none then b else none := by
  cases a with
  | none => cases b <;> simp [Hunk.at?, Change.of?, Hunk.appended?]
  | some a =>
      cases b with
      | none => simp [Hunk.at?, Change.of?, Hunk.appended?]
      | some b =>
          rw [Hunk.at?]
          split <;> simp [Change.of?, Hunk.appended?]

theorem filterMap_getElem?_range (lines : List Bytes) (count : Nat) :
    (List.range count).filterMap (lines[·]?) = lines.take count := by
  induction count with
  | zero => rfl
  | succ count ih =>
      rw [List.range_succ, List.filterMap_append, ih, List.take_add_one]
      rfl

theorem filterMap_appended?_diffLines (o : DiffOptions) (old new : List Bytes) :
    (diffLines o old new).filterMap Hunk.appended? = new.drop old.length := by
  have positions : max old.length new.length = old.length + (new.length - old.length) := by omega
  rw [diffLines_eq, List.filterMap_filterMap, positions, List.range_add, List.filterMap_append,
    List.filterMap_map]
  simp only [appended?_at?]
  have within : (List.range old.length).filterMap
      (fun i => if old[i]? = none then new[i]? else none) = [] := by
    rw [List.filterMap_eq_nil_iff]
    intro i member
    rw [List.getElem?_eq_getElem (List.mem_range.mp member)]
    rfl
  have beyond : ((fun i => if old[i]? = none then new[i]? else none) ∘ (old.length + ·)) =
      fun i => (new.drop old.length)[i]? := by
    funext i
    simp
  rw [within, beyond, filterMap_getElem?_range, List.nil_append]
  exact List.take_of_length_le (by simp)

theorem patch_diffLines (old new : List Bytes) : patch (diffLines {} old new) old = new := by
  rw [patch, filterMap_appended?_diffLines, funext (writtenLine?_diffLines old new),
    filterMap_getElem?_range, List.take_append_drop]

/-- The hunks of two lists of lines are exact: their numbers increase, there is one for every
position at which the lists differ and for no other, it shows the lines of its position, and its
kind says which of the lists have the line. Exchanging the lists exchanges the sides of the hunks.
If no differences are ignored, the hunks lead from each of the lists to the other. -/
theorem diffLines_exact (o : DiffOptions) (old new : List Bytes) :
    (diffLines o old new).Pairwise (fun h h' => h.number < h'.number) ∧
      (∀ i : Nat, (∃ h ∈ diffLines o old new, h.number = i + 1) ↔ o.DiffersAt old new i) ∧
      (∀ h ∈ diffLines o old new, ∃ i : Nat,
        h.number = i + 1 ∧ h.change.old? = old[i]? ∧ h.change.new? = new[i]?) ∧
      (∀ h ∈ diffLines o old new,
        (h.number ≤ old.length ∧ h.number ≤ new.length → h.change.kind = 'c') ∧
        (old.length < h.number → h.change.kind = 'a') ∧
        (new.length < h.number → h.change.kind = 'd')) ∧
      diffLines o new old = (diffLines o old new).map Hunk.swap ∧
      patch (diffLines {} old new) old = new ∧
      patch ((diffLines {} old new).map Hunk.swap) new = old := by
  refine ⟨pairwise_diffLines o old new, fun i => exists_mem_diffLines_iff,
    fun h => sides_of_mem_diffLines, fun h => kind_of_mem_diffLines, diffLines_swap o old new,
    patch_diffLines old new, ?_⟩
  rw [← diffLines_swap]
  exact patch_diffLines new old

end Bytewise

import Bytewise.FileTree.Supply
import Bytewise.Proofs.FileTree.Places
import Mathlib.Data.List.Flatten

/-!
# Names in normal form

A name is followed part by part, and an empty part or a part `.` leads from a directory to itself.
Leaving such parts out can only help: a name that leads to a file still leads to that file when it
is read as a path and written again (`FileTree.openRaw_toText_ofText`). The converse fails, because
`f/` is refused where `f` is a file.

Opening a file fails either because the name cannot be handed to the system at all, or because the
system refuses it (`FileTree.openRaw_error`).
-/

namespace Bytewise

namespace Text

variable {sep : Symbol} {t : Text} {parts some : List Text}

theorem splitAt_ne_nil (sep : Symbol) (t : Text) : splitAt sep t ≠ [] := by
  cases t with
  | nil => exact List.cons_ne_nil _ _
  | cons s t =>
      rw [splitAt]
      split
      case isTrue => exact List.cons_ne_nil _ _
      case isFalse => split <;> exact List.cons_ne_nil _ _

theorem join_splitAt (sep : Symbol) (t : Text) : join [sep] (splitAt sep t) = t := by
  induction t with
  | nil => rfl
  | cons s t ih =>
      obtain ⟨piece, rest, cut⟩ := List.exists_cons_of_ne_nil (splitAt_ne_nil sep t)
      rw [cut] at ih
      rw [splitAt, cut]
      split
      case isTrue same => simp [join, ih, same]
      case isFalse =>
        cases rest with
        | nil => simpa [join] using ih
        | cons next rest => simpa [join] using ih

/-- Every symbol but the separator is in one of the parts. -/
theorem mem_join_iff {s : Symbol} (ordinary : s ≠ sep) :
    s ∈ join [sep] parts ↔ ∃ part ∈ parts, s ∈ part := by
  induction parts with
  | nil => simp [join]
  | cons part rest ih =>
      cases rest with
      | nil => simp [join]
      | cons next rest =>
          rw [join]
          simp only [List.mem_append, List.mem_cons, List.not_mem_nil, ordinary, or_false, ih,
            exists_eq_or_imp]

/-- Joining fewer parts leaves symbols out and adds none. -/
theorem join_sublist (sep : Text) (fewer : some.Sublist parts) :
    (join sep some).Sublist (join sep parts) := by
  induction fewer with
  | slnil => exact List.Sublist.refl _
  | @cons some parts part fewer ih =>
      cases parts with
      | nil =>
          rw [List.sublist_nil.mp fewer]
          exact List.nil_sublist _
      | cons next rest =>
          rw [join]
          exact ih.trans (List.sublist_append_right _ _)
  | @cons_cons some parts part fewer ih =>
      cases some with
      | nil =>
          cases parts with
          | nil => exact List.Sublist.refl _
          | cons next rest =>
              rw [join, join, List.append_assoc]
              exact List.sublist_append_left _ _
      | cons first others =>
          cases parts with
          | nil => cases fewer
          | cons next rest =>
              rw [join, join]
              exact List.Sublist.append_left ih _

end Text

namespace Path

/-- The text of a relative path leaves out symbols of the text that it was read from. -/
theorem toText_ofText_sublist {t : Text} (relative : t.head? ≠ some slash)
    (inhabited : (ofText t).parts ≠ []) : (ofText t).toText.Sublist t := by
  have isRelative : (ofText t).absolute = false := by simpa [ofText] using relative
  rw [toText_of_relative isRelative (normal_ofText t) inhabited]
  have fewer := Text.join_sublist [slash] (List.filter_sublist
    (p := fun part => !part.isEmpty && part != Text.ofString ".") (l := t.splitAt slash))
  rwa [Text.join_splitAt] at fewer

/-- Reading a path and writing it again adds and drops slashes and dots only. -/
theorem mem_toText_ofText {t : Text} {s : Symbol} (notSlash : s ≠ slash)
    (notDot : s ≠ .char '.') : s ∈ (ofText t).toText ↔ s ∈ t := by
  have written : s ∈ (ofText t).toText ↔ s ∈ Text.join [slash] (ofText t).parts := by
    rw [toText]
    split
    case isTrue => simp [notSlash]
    case isFalse =>
      split
      case isTrue empty =>
        rw [List.isEmpty_iff.mp empty]
        simp [Text.ofString, Text.ofChars, notDot]
      case isFalse => rfl
  rw [written, Text.mem_join_iff notSlash]
  conv => rhs; rw [← Text.join_splitAt slash t, Text.mem_join_iff notSlash]
  constructor
  · rintro ⟨part, kept, inside⟩
    exact ⟨part, (List.mem_filter.mp kept).1, inside⟩
  · rintro ⟨part, cut, inside⟩
    refine ⟨part, List.mem_filter.mpr ⟨cut, ?_⟩, inside⟩
    have notIdle : part ≠ [] ∧ part ≠ Text.ofString "." := by
      constructor
      · rintro rfl
        cases inside
      · rintro rfl
        exact notDot (by simpa [Text.ofString, Text.ofChars] using inside)
    simp [notIdle]

end Path

namespace FileTree

variable {t : FileTree} {links : Nat} {trail trail' : List (Text × Node)} {todo less : List Text}
  {name : Text} {data : Bytes}

/-- Parts without some of those that lead from a directory to itself. -/
inductive Squeezed : List Text → List Text → Prop where
  | nil : Squeezed [] []
  | keep (part : Text) {todo less : List Text} (rest : Squeezed todo less) :
      Squeezed (part :: todo) (part :: less)
  | drop {part : Text} {todo less : List Text} (idle : part = [] ∨ part = Text.ofString ".")
      (rest : Squeezed todo less) : Squeezed (part :: todo) less

theorem Squeezed.append (front : List Text) (rest : Squeezed todo less) :
    Squeezed (front ++ todo) (front ++ less) := by
  induction front with
  | nil => exact rest
  | cons part front ih => exact .keep part ih

theorem squeezed_filter (todo : List Text) :
    Squeezed todo (todo.filter fun part => !part.isEmpty && part != Text.ofString ".") := by
  induction todo with
  | nil => exact .nil
  | cons part todo ih =>
      rw [List.filter_cons]
      split
      case isTrue => exact .keep part ih
      case isFalse idle =>
        refine .drop ?_ ih
        by_cases empty : part = []
        · exact .inl empty
        · exact .inr (by simpa [empty] using idle)

/-- A name that leads somewhere leads there without its idle parts. -/
theorem walk_squeezed (arrives : walk t links trail todo = .ok trail') :
    ∀ {less}, Squeezed todo less → walk t links trail less = .ok trail' := by
  replace arrives := leads_of_follow arrives
  induction arrives with
  | arrived links trail =>
      intro less squeezed
      cases squeezed
      exact follow_nil
  | empty here next ih =>
      intro less squeezed
      cases squeezed with
      | drop _ rest => exact ih rest
      | keep _ rest =>
          rw [walk, follow_empty here]
          exact ih rest
  | dot here next ih =>
      intro less squeezed
      cases squeezed with
      | drop _ rest => exact ih rest
      | keep _ rest =>
          rw [walk, follow_dot here]
          exact ih rest
  | dots here next ih =>
      intro less squeezed
      cases squeezed with
      | drop idle rest => exact absurd idle (by decide)
      | keep _ rest =>
          rw [walk, follow_dots here]
          exact ih rest
  | link asked relative next ih =>
      intro less squeezed
      cases squeezed with
      | drop idle rest => exact absurd idle (not_or.mpr ⟨asked.ne_nil, asked.ne_dot⟩)
      | keep _ rest =>
          rw [walk, follow_link asked relative]
          exact ih (rest.append _)
  | name asked plain next ih =>
      intro less squeezed
      cases squeezed with
      | drop idle rest => exact absurd idle (not_or.mpr ⟨asked.ne_nil, asked.ne_dot⟩)
      | keep _ rest =>
          rw [walk, follow_name asked plain]
          exact ih rest
  | missing _ made => cases made

theorem find_toText_ofText {node : Node} (found : t.find name = .ok node) :
    t.find (Path.ofText name).toText = .ok node := by
  obtain ⟨noNul, _, relative, fits, trail, walked, here⟩ := find_eq_ok_iff.mp found
  have normal := Path.normal_ofText name
  have isRelative : (Path.ofText name).absolute = false := by simpa [Path.ofText] using relative
  have squeezed : walk t linkLimit [] (Path.ofText name).parts = .ok trail :=
    walk_squeezed walked (squeezed_filter _)
  by_cases empty : (Path.ofText name).parts = []
  · -- The name has idle parts only, so it leads to the working directory, as `.` does.
    have text : (Path.ofText name).toText = Text.ofString "." := by
      simp [Path.toText, isRelative, empty, Text.join]
    rw [empty, walk, follow_nil] at squeezed
    cases squeezed
    rw [text]
    exact find_eq_ok_iff.mpr ⟨by decide, by decide, by decide, by decide, [], walk_dot, here⟩
  · have shorter := Path.toText_ofText_sublist relative empty
    have parts : (Path.ofText name).toText.splitAt Path.slash = (Path.ofText name).parts := by
      rw [Path.toText_of_relative isRelative normal empty,
        Text.splitAt_join empty normal.slash_not_mem]
    refine find_eq_ok_iff.mpr ⟨fun nul => noNul (shorter.subset nul), ?_, ?_, ?_, trail, ?_, here⟩
    · intro nothing
      rw [nothing] at parts
      exact (normal [] (parts ▸ List.mem_singleton_self _)).1 rfl
    · intro slash
      have absolute : (Path.ofText (Path.ofText name).toText).absolute = true := by
        rw [Path.ofText.eq_def (Path.ofText name).toText, slash]
        rfl
      rw [Path.ofText_toText normal, isRelative] at absolute
      cases absolute
    · exact Nat.le_trans (shorter.flatMap Symbol.encode).length_le fits
    · rw [parts]
      exact squeezed

/-- A file is found under the path that its name is read as. -/
theorem openRaw_toText_ofText (opened : t.openRaw name = .ok data) :
    t.openRaw (Path.ofText name).toText = .ok data := by
  unfold openRaw at opened ⊢
  cases found : t.find name with
  | error fault =>
      rw [found] at opened
      cases opened
  | ok node =>
      rw [found] at opened
      rw [find_toText_ofText found]
      exact opened

/-! ## Opening files -/

/-! ## Refusals -/

/-- A name that holds the character which ends names is refused whatever the tree. -/
theorem openRaw_of_nul (nul : .char '\x00' ∈ name) : t.openRaw name = .error .nulInName := by
  have located : t.locate name = .error .nulInName := by simp [locate, locateWith, nul]
  simp [openRaw, find, located, Functor.map, Except.map]

/-- Any other refusal is one of the system. -/
theorem openRaw_error {fault : Fault} (noNul : .char '\x00' ∉ name)
    (refused : t.openRaw name = .error fault) : ∃ cause, fault = .system cause := by
  rw [openRaw] at refused
  cases located : t.locate name with
  | ok found =>
      simp only [find, located, Functor.map, Except.map] at refused
      cases content : found.node.content with
      | ok data => simp [content, Except.mapError] at refused
      | error cause =>
          simp only [content, Except.mapError, Except.error.injEq] at refused
          exact ⟨cause, refused.symm⟩
  | error other =>
      simp only [find, located, Functor.map, Except.map, Except.error.injEq] at refused
      subst refused
      rw [locate, locateWith] at located
      simp only [List.contains_eq_mem, noNul, decide_false, Bool.false_eq_true,
        ↓reduceIte] at located
      split at located
      · cases located
        exact ⟨_, rfl⟩
      · split at located
        · cases located
          exact ⟨_, rfl⟩
        · split at located <;> cases located
          exact ⟨_, rfl⟩

/-! ## The supply of a tree -/

/-- What the supply of a tree has under a name is the file of that name. -/
theorem opened_supply (t : FileTree) (name : Text) :
    t.supply.opened name = (t.openRaw name).map .ofFile := by
  rw [Supply.opened]
  split
  next nul =>
    rw [openRaw_of_nul nul]
    rfl
  next noNul =>
    rw [supply]
    cases opened : t.openRaw name with
    | ok data => rfl
    | error fault =>
        obtain ⟨cause, rfl⟩ := openRaw_error noNul opened
        rfl

end FileTree

end Bytewise

import Bytewise.Proofs.Text.Encoding
import Bytewise.Text.Style
import Mathlib

/-!
# Texts without their style sequences

Dropping style sequences leaves a part of a text, with its symbols in order
(`Text.unstyled_sublist`), and whatever cannot stand in a sequence is left
(`Text.mem_unstyled_iff`). A symbol that cannot ends every sequence that was begun, so a text is cut
at it before or after the sequences are dropped (`Text.unstyled_append_cons`). In front of a text
without an escape character nothing is dropped at all (`Text.unstyled_append`).
-/

namespace Bytewise

/-- The symbol that begins a style sequence. -/
def escapeSymbol : Symbol := .char '\x1b'

/-- A symbol that may stand in a style sequence. -/
def Symbol.CanStyle (s : Symbol) : Prop :=
  s = escapeSymbol ∨ s = .char '[' ∨ isStyleArgument s = true ∨ endsStyle s = true

instance (s : Symbol) : Decidable s.CanStyle :=
  inferInstanceAs (Decidable (_ ∨ _ ∨ _ ∨ _))

/-! ## One sequence -/

section

variable {s b : Symbol} {rest t u : Text}

theorem styleLength_of_ne (other : s ≠ escapeSymbol) (rest : Text) :
    styleLength (s :: rest) = 0 := by
  rw [styleLength.eq_def]
  split
  next same =>
    cases same
    exact absurd rfl other
  next => rfl

/-- A sequence is no longer than the text, and all of its symbols may stand in one. -/
theorem canStyle_of_styleLength (t : Text) :
    styleLength t ≤ t.length ∧ ∀ s ∈ t.take (styleLength t), s.CanStyle := by
  rw [styleLength.eq_def]
  split
  next rest =>
    have whole := rest.takeWhile_append_dropWhile (p := isStyleArgument)
    have arguments (s : Symbol) (member : s ∈ rest.takeWhile isStyleArgument) : s.CanStyle :=
      .inr (.inr (.inl (List.mem_takeWhile_imp member)))
    split
    next s behind tail =>
      rw [tail] at whole
      generalize rest.takeWhile isStyleArgument = front at whole arguments
      subst whole
      split
      next ends =>
        have taken : (front ++ s :: behind).take (front.length + 1) = front ++ [s] := by
          simp [List.take_append]
        refine ⟨by simp, ?_⟩
        rw [List.take_succ_cons, List.take_succ_cons, taken, List.forall_mem_cons,
          List.forall_mem_cons]
        refine ⟨.inl rfl, .inr (.inl rfl), fun x member => ?_⟩
        obtain argument | last := List.mem_append.mp member
        · exact arguments x argument
        · rw [List.mem_singleton.mp last]
          exact .inr (.inr (.inr ends))
      next => simp
    next => simp
  next => simp

/-- Whether a text begins with a sequence is decided before any symbol that cannot stand in one. -/
theorem styleLength_append_cons (plain : ¬ b.CanStyle) (inhabited : t ≠ []) (u : Text) :
    styleLength (t ++ b :: u) = styleLength t := by
  simp only [Symbol.CanStyle, not_or, Bool.not_eq_true] at plain
  obtain ⟨-, noBracket, noArgument, noEnd⟩ := plain
  obtain ⟨s, rest, rfl⟩ := List.exists_cons_of_ne_nil inhabited
  by_cases escape : s = escapeSymbol
  case neg => rw [List.cons_append, styleLength_of_ne escape, styleLength_of_ne escape]
  subst escape
  cases rest with
  | nil =>
      rw [styleLength.eq_def, styleLength.eq_def]
      simp [escapeSymbol, noBracket]
  | cons c rest =>
      by_cases bracket : c = .char '['
      case neg => simp [styleLength, escapeSymbol, bracket]
      subst bracket
      simp only [styleLength, escapeSymbol, List.cons_append]
      rw [List.dropWhile_append]
      cases behind : rest.dropWhile isStyleArgument with
      | nil => simp [noArgument, noEnd]
      | cons d others =>
          have whole := rest.takeWhile_append_dropWhile (p := isStyleArgument)
          have stops : (rest ++ b :: u).takeWhile isStyleArgument =
              rest.takeWhile isStyleArgument := by
            rw [List.takeWhile_append, if_neg]
            have lengths := congrArg List.length whole
            rw [behind, List.length_append, List.length_cons] at lengths
            omega
          simp [stops]

end

namespace Text

variable {s b : Symbol} {t u : Text}

/-! ## All sequences -/

theorem dropStyles_sublist (left : Nat) (t : Text) : (t.dropStyles left).Sublist t := by
  fun_induction dropStyles left t with
  | case1 => exact .slnil
  | case2 left s rest ih => exact ih.cons s
  | case3 s rest _ ih => exact ih.cons_cons s
  | case4 s rest length _ ih => exact ih.cons s

theorem unstyled_sublist (t : Text) : t.unstyled.Sublist t := dropStyles_sublist 0 t

theorem length_unstyled_le (t : Text) : t.unstyled.length ≤ t.length := t.unstyled_sublist.length_le

/-- A text that is as long without its sequences has none. -/
theorem unstyled_eq_self (long : t.length ≤ t.unstyled.length) : t.unstyled = t :=
  t.unstyled_sublist.eq_of_length_le long

/-- What cannot stand in a sequence is left, where what is being dropped is the rest of one. -/
theorem mem_dropStyles (plain : ¬ s.CanStyle) {left : Nat}
    (dropped : ∀ x ∈ t.take left, x.CanStyle) (member : s ∈ t) : s ∈ t.dropStyles left := by
  fun_induction dropStyles left t with
  | case1 => exact member
  | case2 left first rest ih =>
      rw [List.take_succ_cons, List.forall_mem_cons] at dropped
      obtain rfl | later := List.mem_cons.mp member
      · exact absurd dropped.1 plain
      · exact ih dropped.2 later
  | case3 first rest _ ih =>
      obtain rfl | later := List.mem_cons.mp member
      · exact List.mem_cons_self
      · exact List.mem_cons_of_mem _ (ih (by simp) later)
  | case4 first rest length long ih =>
      have styles := (canStyle_of_styleLength (first :: rest)).2
      rw [long, List.take_succ_cons, List.forall_mem_cons] at styles
      obtain rfl | later := List.mem_cons.mp member
      · exact absurd styles.1 plain
      · exact ih styles.2 later

theorem mem_unstyled_iff (plain : ¬ s.CanStyle) : s ∈ t.unstyled ↔ s ∈ t :=
  ⟨fun member => t.unstyled_sublist.subset member, mem_dropStyles plain (by simp)⟩

theorem dropStyles_append_cons (plain : ¬ b.CanStyle) (u : Text) {left : Nat}
    (short : left ≤ t.length) :
    (t ++ b :: u).dropStyles left = t.dropStyles left ++ unstyled (b :: u) := by
  fun_induction dropStyles left t with
  | case1 left =>
      obtain rfl : left = 0 := Nat.le_zero.mp short
      rfl
  | case2 left first rest ih =>
      rw [List.cons_append, dropStyles]
      exact ih (Nat.le_of_succ_le_succ short)
  | case3 first rest none ih =>
      rw [List.cons_append, dropStyles, ← List.cons_append,
        styleLength_append_cons plain (List.cons_ne_nil _ _), none]
      exact congrArg (first :: ·) (ih (Nat.zero_le _))
  | case4 first rest length long ih =>
      rw [List.cons_append, dropStyles, ← List.cons_append,
        styleLength_append_cons plain (List.cons_ne_nil _ _), long]
      have fits := (canStyle_of_styleLength (first :: rest)).1
      rw [long] at fits
      exact ih (Nat.le_of_succ_le_succ fits)

/-- A symbol that cannot stand in a sequence ends the one before it. -/
theorem unstyled_append_cons (plain : ¬ b.CanStyle) (t u : Text) :
    (t ++ b :: u).unstyled = t.unstyled ++ unstyled (b :: u) :=
  dropStyles_append_cons plain u (Nat.zero_le _)

/-! ## Texts without sequences -/

theorem unstyled_cons (other : s ≠ escapeSymbol) (t : Text) :
    unstyled (s :: t) = s :: t.unstyled := by
  rw [unstyled, dropStyles, styleLength_of_ne other]
  rfl

theorem unstyled_append (none : escapeSymbol ∉ t) (u : Text) :
    (t ++ u).unstyled = t ++ u.unstyled := by
  induction t with
  | nil => rfl
  | cons s t ih =>
      obtain ⟨other, none⟩ := not_or.mp (mt List.mem_cons.mpr none)
      rw [List.cons_append, unstyled_cons (Ne.symm other), ih none, List.cons_append]

theorem unstyled_of_not_mem (none : escapeSymbol ∉ t) : t.unstyled = t := by
  have alone := unstyled_append none []
  rwa [List.append_nil, show unstyled [] = [] from rfl, List.append_nil] at alone

/-- Nothing is dropped of what comes behind a symbol that cannot stand in a sequence, if it holds no
escape character. -/
theorem unstyled_append_of_not_mem (plain : ¬ b.CanStyle) (none : escapeSymbol ∉ u) (t : Text) :
    (t ++ b :: u).unstyled = t.unstyled ++ b :: u := by
  have other : escapeSymbol ∉ b :: u := by
    rintro (_ | ⟨_, later⟩)
    · exact plain (.inl rfl)
    · exact none later
  rw [unstyled_append_cons plain, unstyled_of_not_mem other]

/-- Dropping sequences drops no stray byte, and makes none. -/
theorem printable_unstyled : t.unstyled.Printable ↔ t.Printable := by
  refine ⟨fun printable s member => ?_, fun printable s member =>
    printable s (t.unstyled_sublist.subset member)⟩
  cases s with
  | char c => rfl
  | stray b =>
      have plain : ¬ (Symbol.stray b).CanStyle := by
        simp [Symbol.CanStyle, escapeSymbol, isStyleArgument, endsStyle]
      exact printable _ ((mem_unstyled_iff plain).mpr member)

end Text

end Bytewise

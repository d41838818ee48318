import Bytewise.Ignore.Pattern
import Bytewise.Proofs.Package.Patterns

/-!
# Reading ignore patterns

The rules that a list of values is read as are given value by value (`IgnoreRules.Reads`). A line
that is read as a pattern ignores the paths it applies to exactly if it does not begin with the mark
(`Pattern.ignores_iff`).
-/

namespace Bytewise

namespace Pattern

variable {line : Text} {p : Pattern}

theorem head?_strip {s : Symbol} (head : (strip line).head? = some s) : line.head? = some s := by
  rw [strip] at head
  split at head
  · exact head
  · have front : line.trimEnd <+: line := by
      have ends : line.reverse.dropWhile Symbol.isBlank <:+ line.reverse :=
        List.dropWhile_suffix Symbol.isBlank
      simpa [Text.trimEnd, Text.dropEndWhile] using List.reverse_prefix.mpr ends
    obtain ⟨rest, whole⟩ := front
    rw [← whole, List.head?_append, head, Option.some_or]

/-- Blanks at the end do not reach a first symbol that is none. -/
theorem trimEnd_cons {s : Symbol} (inked : s.isBlank = false) (t : Text) :
    Text.trimEnd (s :: t) = s :: Text.trimEnd t := by
  have alone : [s].dropWhile Symbol.isBlank = [s] := by simp [inked]
  rw [Text.trimEnd, Text.trimEnd, Text.dropEndWhile, Text.dropEndWhile, List.reverse_cons,
    List.dropWhile_append, alone]
  split
  next empty => simp [List.isEmpty_iff.mp empty]
  next => simp

/-- A line is read with the mark exactly if it begins with it. -/
theorem head?_strip_eq_mark_iff :
    (strip line).head? = some (.char '!') ↔ IsNegation line := by
  refine ⟨head?_strip, fun negation => ?_⟩
  obtain ⟨rest, rfl⟩ := List.head?_eq_some_iff.mp negation
  rw [strip, trimEnd_cons rfl]
  split <;> rfl

theorem polarity_eq_false_iff (body : Text) :
    (polarity body).1 = false ↔ body.head? = some (.char '!') := by
  rw [polarity.eq_def]
  split
  next rest => simp
  next unmarked =>
    refine iff_of_false (by simp) fun marked => ?_
    obtain ⟨rest, rfl⟩ := List.head?_eq_some_iff.mp marked
    exact unmarked rest rfl

/-- A pattern ignores the paths it applies to, unless its line begins with the mark. -/
theorem ignores_iff (read : parse line = .ok (some p)) : p.ignores = true ↔ ¬ IsNegation line := by
  have polarized : p.ignores = (polarity (strip line)).1 := by
    rw [parse] at read
    split at read
    · cases read
    · dsimp only at read
      split at read
      · cases read
      · split at read <;> cases read
        rfl
  rw [polarized, ← head?_strip_eq_mark_iff, ← polarity_eq_false_iff, Bool.not_eq_false]

end Pattern

namespace IgnoreRules

variable {rules : IgnoreRules}

/-! ## Reading patterns -/

/-- The rules that values of patterns are read as: what is empty or zero and what says nothing is
passed over. -/
inductive Reads : List Value → IgnoreRules → Prop where
  | nil : Reads [] []
  | empty {v : Value} {rest : List Value} {rules : IgnoreRules} (falsy : v.truthy = false)
      (others : Reads rest rules) : Reads (v :: rest) rules
  | silent {line : Text} {rest : List Value} {rules : IgnoreRules} (given : line ≠ [])
      (none : Pattern.parse line = .ok none) (others : Reads rest rules) :
      Reads (.text line :: rest) rules
  | pattern {line : Text} {p : Pattern} {rest : List Value} {rules : IgnoreRules}
      (given : line ≠ []) (read : Pattern.parse line = .ok (some p)) (others : Reads rest rules) :
      Reads (.text line :: rest) (p :: rules)

theorem ofValues_empty {v : Value} (falsy : v.truthy = false) (rest : List Value) :
    ofValues (v :: rest) = ofValues rest := by
  rw [ofValues, List.filter_cons_of_neg (by simp [falsy])]
  rfl

theorem ofValues_line {line : Text} (given : line ≠ []) (rest : List Value) :
    ofValues (.text line :: rest) = do
      let first ← Pattern.parse line
      let others ← ofValues rest
      return first.toList ++ others := by
  have truthy : (Value.text line).truthy = true := by simpa [Value.truthy] using given
  simp only [ofValues, List.filter_cons_of_pos truthy, List.mapM_cons]
  cases Pattern.parse line with
  | error fault => rfl
  | ok first =>
      simp only [bind, Except.bind, pure, Except.pure]
      generalize List.mapM (m := Except Fault) _ (rest.filter Value.truthy) = others
      cases others with
      | error fault => rfl
      | ok others => cases first <;> rfl

theorem reads_of_ofValues {values : List Value} (read : ofValues values = .ok rules) :
    Reads values rules := by
  induction values generalizing rules with
  | nil =>
      cases read
      exact .nil
  | cons v rest ih =>
      cases truthy : v.truthy with
      | false => exact .empty truthy (ih (ofValues_empty truthy rest ▸ read))
      | true =>
          cases v with
          | text line =>
              have given : line ≠ [] := by simpa [Value.truthy] using truthy
              rw [ofValues_line given] at read
              cases parsed : Pattern.parse line with
              | error fault =>
                  rw [parsed] at read
                  cases read
              | ok first =>
                  cases others : ofValues rest with
                  | error fault =>
                      rw [parsed, others] at read
                      cases read
                  | ok more =>
                      rw [parsed, others] at read
                      cases read
                      cases first with
                      | none => exact .silent given parsed (ih others)
                      | some p => exact .pattern given parsed (ih others)
          | _ =>
              rw [ofValues, List.filter_cons_of_pos truthy, List.mapM_cons] at read
              cases read

end IgnoreRules

end Bytewise

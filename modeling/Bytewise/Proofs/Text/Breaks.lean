import Bytewise.Text.Line

/-!
# Lines of text

A text is cut into lines at every line break of Unicode, of which the line feed is only one. So
lines that were written one after the other, each with a line feed behind it, are read back as they
were if no line holds a break of any kind (`Text.lines_flatMap`), and what is read is free of breaks
whatever was written (`Text.unbroken_of_mem_lines`).
-/

namespace Bytewise

def Symbol.isBreak : Symbol → Bool
  | .char c => isLineBreak c
  | .stray _ => false

namespace Text

def Unbroken (t : Text) : Prop := ∀ s ∈ t, s.isBreak = false

variable {line current rest t u : Text}

theorem unbroken_append : (t ++ u).Unbroken ↔ t.Unbroken ∧ u.Unbroken := by
  simp only [Unbroken, List.mem_append, or_imp, forall_and]

theorem linesFrom_cons {s : Symbol} (unbroken : s.isBreak = false) (current rest : Text) :
    linesFrom current (s :: rest) = linesFrom (s :: current) rest := by
  cases s with
  | stray b => simp [linesFrom]
  | char c =>
      have notReturn : c ≠ '\r' := by
        rintro rfl
        cases unbroken
      have notBreak : isLineBreak c = false := unbroken
      simp [linesFrom, notReturn, notBreak]

theorem linesFrom_append (unbroken : line.Unbroken) (current rest : Text) :
    linesFrom current (line ++ rest) = linesFrom (line.reverse ++ current) rest := by
  induction line generalizing current with
  | nil => rfl
  | cons s line ih =>
      obtain ⟨first, others⟩ := List.forall_mem_cons.mp unbroken
      rw [List.cons_append, linesFrom_cons first, ih others]
      simp

theorem lines_feed (unbroken : line.Unbroken) (rest : Text) :
    lines (line ++ .char '\n' :: rest) = line :: lines rest := by
  rw [lines, linesFrom_append unbroken]
  simp [linesFrom, isLineBreak, lines]

/-- Lines that were written with a line feed behind each are read back. -/
theorem lines_flatMap {α : Type} {g : α → Text} {xs : List α}
    (unbroken : ∀ x ∈ xs, (g x).Unbroken) :
    lines (xs.flatMap fun x => g x ++ [.char '\n']) = xs.map g := by
  induction xs with
  | nil => rfl
  | cons x xs ih =>
      obtain ⟨first, others⟩ := List.forall_mem_cons.mp unbroken
      rw [List.flatMap_cons, List.append_assoc, List.singleton_append, lines_feed first, ih others,
        List.map_cons]

theorem unbroken_nil : Unbroken [] := nofun

theorem unbroken_reverse (unbroken : t.Unbroken) : Unbroken t.reverse :=
  fun s member => unbroken s (List.mem_reverse.mp member)

theorem unbroken_of_mem_linesFrom (begun : current.Unbroken) (member : line ∈ linesFrom current t) :
    line.Unbroken := by
  fun_induction linesFrom current t with
  | case1 => cases member
  | case2 current inhabited =>
      rw [List.mem_singleton.mp member]
      exact unbroken_reverse begun
  | case3 current rest ih =>
      obtain rfl | later := List.mem_cons.mp member
      · exact unbroken_reverse begun
      · exact ih unbroken_nil later
  | case4 current c rest _ isBreak ih =>
      obtain rfl | later := List.mem_cons.mp member
      · exact unbroken_reverse begun
      · exact ih unbroken_nil later
  | case5 current c rest _ notBreak ih =>
      refine ih (List.forall_mem_cons.mpr ⟨?_, begun⟩) member
      exact Bool.eq_false_iff.mpr notBreak
  | case6 current s rest _ notChar ih =>
      refine ih (List.forall_mem_cons.mpr ⟨?_, begun⟩) member
      cases s with
      | char c => exact absurd rfl (notChar c)
      | stray b => rfl

/-- A line that is read holds no break. -/
theorem unbroken_of_mem_lines (member : line ∈ lines t) : line.Unbroken :=
  unbroken_of_mem_linesFrom unbroken_nil member

end Text

/-- A text without carriage returns is read as it stands. -/
theorem universalNewlines_of_not_mem {t : Text} (noReturn : .char '\r' ∉ t) :
    universalNewlines t = t := by
  induction t with
  | nil => rfl
  | cons s t ih =>
      rw [List.mem_cons, not_or] at noReturn
      rw [universalNewlines, ih noReturn.2]
      · rintro rest rfl
        exact absurd rfl noReturn.1
      · rintro rfl
        exact absurd rfl noReturn.1

end Bytewise

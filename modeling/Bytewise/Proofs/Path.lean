import Bytewise.Path

/-!
# Paths and their texts

Cutting a text at its slashes undoes joining parts with slashes, as long as no part holds one. So a
path in normal form is determined by its text (`Path.ofText_toText`), and two places below one
directory have different texts.
-/

namespace Bytewise

namespace Text

variable {sep : Symbol} {t u : Text} {parts : List Text}

theorem splitAt_of_not_mem (absent : sep ∉ t) : splitAt sep t = [t] := by
  induction t with
  | nil => rfl
  | cons s t ih =>
      rw [List.mem_cons, not_or] at absent
      rw [splitAt, if_neg (Ne.symm absent.1), ih absent.2]

theorem splitAt_append_sep (absent : sep ∉ t) (u : Text) :
    splitAt sep (t ++ sep :: u) = t :: splitAt sep u := by
  induction t with
  | nil => simp [splitAt]
  | cons s t ih =>
      rw [List.mem_cons, not_or] at absent
      rw [List.cons_append, splitAt, if_neg (Ne.symm absent.1), ih absent.2]

theorem splitAt_join (nonempty : parts ≠ []) (absent : ∀ part ∈ parts, sep ∉ part) :
    splitAt sep (join [sep] parts) = parts := by
  induction parts with
  | nil => exact absurd rfl nonempty
  | cons part rest ih =>
      rw [List.forall_mem_cons] at absent
      cases rest with
      | nil => rw [join, splitAt_of_not_mem absent.1]
      | cons next rest =>
          rw [join, List.append_assoc, List.singleton_append, splitAt_append_sep absent.1,
            ih (List.cons_ne_nil _ _) absent.2]

theorem not_mem_of_mem_splitAt {part : Text} (member : part ∈ splitAt sep t) : sep ∉ part := by
  induction t generalizing part with
  | nil => simp_all [splitAt]
  | cons s t ih =>
      rw [splitAt] at member
      split at member
      case isTrue =>
        obtain rfl | member := List.mem_cons.mp member
        · simp
        · exact ih member
      case isFalse differs =>
        split at member
        · simp_all [Ne.symm differs]
        · next piece rest cut =>
          obtain rfl | member := List.mem_cons.mp member
          · have inside := ih (cut ▸ List.mem_cons_self)
            simp [inside, Ne.symm differs]
          · exact ih (cut ▸ List.mem_cons_of_mem _ member)

theorem join_concat (nonempty : parts ≠ []) (sep part : Text) :
    join sep (parts ++ [part]) = join sep parts ++ sep ++ part := by
  induction parts with
  | nil => exact absurd rfl nonempty
  | cons first rest ih =>
      cases rest with
      | nil => rfl
      | cons next rest =>
          have more := ih (List.cons_ne_nil _ _)
          simp only [List.cons_append, join, List.append_assoc] at more ⊢
          rw [more]

theorem join_isPrefix (nonempty : parts ≠ []) (sep : Text) (more : List Text) :
    join sep parts <+: join sep (parts ++ more) := by
  induction more generalizing parts with
  | nil => simp
  | cons part more ih =>
      have longer : join sep (parts ++ [part]) <+: join sep (parts ++ [part] ++ more) :=
        ih (by simp)
      rw [join_concat nonempty, List.append_assoc, List.append_assoc] at longer
      exact (List.prefix_append _ _).trans longer

end Text

namespace Path

/-- No part is empty, stands for the directory itself, or holds a slash. -/
def Normal (p : Path) : Prop :=
  ∀ part ∈ p.parts, part ≠ [] ∧ part ≠ Text.ofString "." ∧ slash ∉ part

/-- The path that leads from a path through further names. -/
def below (p : Path) (names : List Text) : Path := { p with parts := p.parts ++ names }

@[simp] theorem below_nil (p : Path) : p.below [] = p := by simp [below]

@[simp] theorem below_child (p : Path) (name : Text) (names : List Text) :
    (p.child name).below names = p.below (name :: names) := by simp [below, child]

variable {p q : Path}

theorem normal_ofText (t : Text) : (ofText t).Normal := by
  intro part member
  obtain ⟨cut, kept⟩ := List.mem_filter.mp member
  simp only [Bool.and_eq_true, Bool.not_eq_true', List.isEmpty_eq_false_iff, bne_iff_ne] at kept
  exact ⟨kept.1, kept.2, Text.not_mem_of_mem_splitAt cut⟩

theorem Normal.slash_not_mem (normal : p.Normal) : ∀ part ∈ p.parts, slash ∉ part :=
  fun part member => (normal part member).2.2

/-- The text of a relative path with parts. -/
theorem toText_of_relative (relative : p.absolute = false) (normal : p.Normal)
    (nonempty : p.parts ≠ []) : p.toText = Text.join [slash] p.parts := by
  have inhabited : Text.join [slash] p.parts ≠ [] := by
    intro empty
    have cut := Text.splitAt_join nonempty normal.slash_not_mem
    rw [empty, Text.splitAt] at cut
    exact (normal [] (cut ▸ List.mem_singleton_self _)).1 rfl
  simp [toText, relative, inhabited]

/-- Reading the text of a path in normal form gives the path back. -/
theorem ofText_toText (normal : p.Normal) : ofText p.toText = p := by
  have kept :
      (p.parts.filter fun part => !part.isEmpty && part != Text.ofString ".") = p.parts := by
    apply List.filter_eq_self.mpr
    intro part member
    have := normal part member
    simp_all
  obtain ⟨absolute, parts⟩ := p
  cases absolute with
  | true =>
      cases parts with
      | nil => decide
      | cons part rest =>
          have cut := Text.splitAt_join (List.cons_ne_nil part rest) normal.slash_not_mem
          simp_all [ofText, toText, Text.splitAt]
  | false =>
      cases parts with
      | nil => decide
      | cons part rest =>
          have cut := Text.splitAt_join (List.cons_ne_nil part rest) normal.slash_not_mem
          have written := toText_of_relative (p := ⟨false, part :: rest⟩) rfl normal
            (List.cons_ne_nil _ _)
          have start : (Text.join [slash] (part :: rest)).head? ≠ some slash := by
            obtain ⟨inhabited, _, absent⟩ := normal part List.mem_cons_self
            obtain ⟨s, part, rfl⟩ := List.exists_cons_of_ne_nil inhabited
            have first : (Text.join [slash] ((s :: part) :: rest)).head? = some s := by
              cases rest <;> rfl
            rw [first]
            rintro ⟨⟩
            exact absent List.mem_cons_self
          simp_all [ofText]

theorem toText_inj (normal : p.Normal) (normal' : q.Normal) : p.toText = q.toText ↔ p = q := by
  refine ⟨fun same => ?_, fun same => same ▸ rfl⟩
  rw [← ofText_toText normal, ← ofText_toText normal', same]

end Path

end Bytewise

import Mathlib.Data.List.Basic
import Mathlib.Data.List.Induction

/-!
# The first and the last of a list

If a member of a list has a property, one of those that have it is the first (`exists_first`).

Dropping repetitions keeps the first occurrence of every member. So the last of the members that are
left is the one whose first occurrence is last (`getLast?_eraseDups_eq_some_iff`), which need not be
the last member of the list.
-/

namespace Bytewise

section

variable {α : Type} {p q : α → Prop} {x : α} {xs : List α}

theorem exists_first (some : ∃ x ∈ xs, p x) :
    ∃ before x after, xs = before ++ x :: after ∧ (∀ y ∈ before, ¬ p y) ∧ p x := by
  induction xs with
  | nil => simp at some
  | cons x xs ih =>
      by_cases first : p x
      · exact ⟨[], x, xs, rfl, List.forall_mem_nil _, first⟩
      · have others : ∃ y ∈ xs, p y := by simpa [first] using some
        obtain ⟨before, y, after, rfl, none, here⟩ := ih others
        exact ⟨x :: before, y, after, rfl, List.forall_mem_cons.mpr ⟨first, none⟩, here⟩

/-- A list is cut at its first member, or further on. -/
theorem exists_cut_cons_iff :
    (∃ before y after, x :: xs = before ++ y :: after ∧ (∀ z ∈ before, p z) ∧ q y) ↔
      q x ∨ p x ∧ ∃ before y after, xs = before ++ y :: after ∧ (∀ z ∈ before, p z) ∧ q y := by
  constructor
  · rintro ⟨before, y, after, cut, all, here⟩
    cases before with
    | nil =>
        cases cut
        exact .inl here
    | cons z before =>
        cases cut
        obtain ⟨first, others⟩ := List.forall_mem_cons.mp all
        exact .inr ⟨first, before, y, after, rfl, others, here⟩
  · rintro (here | ⟨first, before, y, after, rfl, others, here⟩)
    · exact ⟨[], x, xs, rfl, List.forall_mem_nil _, here⟩
    · exact ⟨x :: before, y, after, rfl, List.forall_mem_cons.mpr ⟨first, others⟩, here⟩

end

variable {α β : Type} [DecidableEq α] [DecidableEq β] {xs : List α} {x : α}

theorem eraseDups_concat (xs : List α) (x : α) :
    (xs ++ [x]).eraseDups = if x ∈ xs then xs.eraseDups else xs.eraseDups ++ [x] := by
  rw [List.eraseDups_append, List.removeAll]
  by_cases known : x ∈ xs <;> simp [known, List.eraseDups_cons]

/-- Members can be replaced before repetitions are dropped, where no two are replaced by one. -/
theorem filterMap_eraseDups {f : α → Option β}
    (injective : ∀ x y b, f x = some b → f y = some b → x = y) (xs : List α) :
    xs.eraseDups.filterMap f = (xs.filterMap f).eraseDups := by
  induction xs using List.reverseRecOn with
  | nil => rfl
  | append_singleton xs x ih =>
      rw [eraseDups_concat, List.filterMap_append]
      cases image : f x with
      | none =>
          split
          next => simp [image, ih]
          next => simp [List.filterMap_append, image, ih]
      | some b =>
          have known : b ∈ xs.filterMap f ↔ x ∈ xs := by
            rw [List.mem_filterMap]
            constructor
            · rintro ⟨y, member, same⟩
              exact injective x y b image same ▸ member
            · exact fun member => ⟨x, member, image⟩
          have alone : [x].filterMap f = [b] := by simp [image]
          rw [alone, eraseDups_concat]
          split
          next member => rw [if_pos (known.mpr member), ih]
          next new => rw [if_neg (known.not.mpr new), List.filterMap_append, alone, ih]

/-- A member of a list enters last if no other occurs for the first time behind its first
occurrence. -/
def EntersLast (xs : List α) (x : α) : Prop := x ∈ xs ∧ ∀ y ∈ xs, xs.idxOf y ≤ xs.idxOf x

instance (xs : List α) (x : α) : Decidable (EntersLast xs x) :=
  inferInstanceAs (Decidable (_ ∧ _))

theorem entersLast_concat_of_mem {z : α} (known : z ∈ xs) :
    EntersLast (xs ++ [z]) x ↔ EntersLast xs x := by
  have members (y : α) : y ∈ xs ++ [z] ↔ y ∈ xs := by
    rw [List.mem_append, List.mem_singleton]
    exact ⟨fun either => either.elim id (· ▸ known), .inl⟩
  simp only [EntersLast, members]
  refine and_congr_right fun member => forall₂_congr fun y among => ?_
  rw [List.idxOf_append_of_mem among, List.idxOf_append_of_mem member]

theorem entersLast_concat_of_not_mem {z : α} (new : z ∉ xs) :
    EntersLast (xs ++ [z]) x ↔ x = z := by
  have behind : (xs ++ [z]).idxOf z = xs.length := by
    simp [List.idxOf_append_of_notMem new]
  have before {y : α} (among : y ∈ xs) : (xs ++ [z]).idxOf y < xs.length := by
    rw [List.idxOf_append_of_mem among]
    exact List.idxOf_lt_length_of_mem among
  constructor
  · rintro ⟨member, last⟩
    obtain earlier | rfl := (List.mem_append.mp member).imp_right List.mem_singleton.mp
    · have later := last z (by simp)
      have position := before earlier
      omega
    · rfl
  · rintro rfl
    refine ⟨by simp, fun y among => ?_⟩
    obtain earlier | rfl := (List.mem_append.mp among).imp_right List.mem_singleton.mp
    · exact behind ▸ Nat.le_of_lt (before earlier)
    · exact Nat.le_refl _

/-- What is left last when repetitions are dropped is the member that enters last. -/
theorem getLast?_eraseDups_eq_some_iff :
    xs.eraseDups.getLast? = some x ↔ EntersLast xs x := by
  induction xs using List.reverseRecOn with
  | nil => simp [EntersLast]
  | append_singleton xs z ih =>
      rw [eraseDups_concat]
      split
      next known => rw [ih, entersLast_concat_of_mem known]
      next new =>
        rw [entersLast_concat_of_not_mem new, List.getLast?_concat, Option.some_inj]
        exact eq_comm

end Bytewise

import Bytewise.Text.Symbol

/-!
# The order of names and of places

Texts are ordered by the code points of their symbols. Different symbols have different code points,
a stray byte included, so `Text.le` is a linear order and sorting entries with different names by it
leaves no two of them tied (`pairwise_before_mergeSort`).

A place is a list of names from some directory on. Places are ordered name by name, which is the
order in which a depth-first walk in the order of the names comes to them.
-/

namespace Bytewise

/-- No character has a code point in the range that stands for stray bytes. -/
theorem Symbol.codePoint_injective {s u : Symbol} (same : s.codePoint = u.codePoint) : s = u := by
  have apart (c : Char) (b : UInt8) : c.toNat ≠ 0xDC00 + b.toNat := by
    intro equal
    have low := b.toNat_lt
    have valid : c.toNat < 0xD800 ∨ 0xDFFF < c.toNat ∧ c.toNat < 0x110000 := c.valid
    omega
  cases s with
  | char c =>
      cases u with
      | char d => rw [Char.toNat_inj.mp same]
      | stray b => exact absurd same (apart c b)
  | stray b =>
      cases u with
      | char d => exact absurd same.symm (apart d b)
      | stray d => rw [UInt8.toNat_inj.mp (Nat.add_left_cancel same)]

namespace Text

/-- One text stands before another if its code points do, compared one by one. -/
def Before (a b : Text) : Prop :=
  List.Lex (· < ·) (a.map Symbol.codePoint) (b.map Symbol.codePoint)

variable {a b c : Text}

theorem not_before_self (a : Text) : ¬ a.Before a := List.lex_irrefl Nat.lt_irrefl _

theorem Before.trans (first : a.Before b) (second : b.Before c) : a.Before c :=
  List.lex_trans Nat.lt_trans first second

theorem le_iff : a.le b = true ↔ a.Before b ∨ a = b := by
  induction a generalizing b with
  | nil => cases b <;> simp [le, Before]
  | cons s a ih =>
      cases b with
      | nil => simp [le, Before]
      | cons u b =>
          have unfolded : Before (s :: a) (u :: b) ↔
              s.codePoint < u.codePoint ∨ s.codePoint = u.codePoint ∧ Before a b := by
            simp only [Before, List.map_cons, List.cons_lex_cons_iff]
          have same : s = u ↔ s.codePoint = u.codePoint :=
            ⟨fun equal => equal ▸ rfl, Symbol.codePoint_injective⟩
          rw [le, unfolded, List.cons.injEq, same]
          by_cases less : s.codePoint < u.codePoint
          · simp [less]
          · by_cases more : u.codePoint < s.codePoint
            · have differ : s.codePoint ≠ u.codePoint := by omega
              simp [less, more, differ]
            · have equal : s.codePoint = u.codePoint := by omega
              simp [equal, ih]

theorem le_trans (first : a.le b = true) (second : b.le c = true) : a.le c = true := by
  rw [le_iff] at *
  obtain first | rfl := first
  · obtain second | rfl := second
    · exact .inl (first.trans second)
    · exact .inl first
  · exact second

theorem le_total (a b : Text) : (a.le b || b.le a) = true := by
  induction a generalizing b with
  | nil => simp [le]
  | cons s a ih =>
      cases b with
      | nil => simp [le]
      | cons u b =>
          by_cases less : s.codePoint < u.codePoint
          · simp [le, less]
          · by_cases more : u.codePoint < s.codePoint
            · simp [le, more]
            · simpa [le, less, more] using ih b

/-- Entries with different names, sorted by them, stand in strict order. -/
theorem pairwise_before_mergeSort {α : Type} (entries : List (Text × α))
    (distinct : (entries.map Prod.fst).Nodup) :
    (entries.mergeSort fun e f => e.1.le f.1).Pairwise (·.1.Before ·.1) := by
  have sorted := @List.pairwise_mergeSort _ (fun e f : Text × α => e.1.le f.1)
    (fun _ _ _ => le_trans) (fun e f => le_total e.1 f.1) entries
  have apart : (entries.mergeSort fun e f => e.1.le f.1).Pairwise (·.1 ≠ ·.1) := by
    have names := (entries.mergeSort_perm fun e f => e.1.le f.1).map Prod.fst
    exact List.pairwise_map.mp (names.nodup_iff.mpr distinct)
  refine (sorted.and apart).imp ?_
  rintro e f ⟨ordered, differ⟩
  exact (le_iff.mp ordered).resolve_right differ

end Text

/-- One place stands before another if its names do, compared one by one. -/
def PlaceBefore (p q : List Text) : Prop := List.Lex Text.Before p q

namespace PlaceBefore

variable {p q r : List Text} {a b : Text}

theorem irrefl (p : List Text) : ¬ PlaceBefore p p := List.lex_irrefl Text.not_before_self p

theorem trans (first : PlaceBefore p q) (second : PlaceBefore q r) : PlaceBefore p r :=
  List.lex_trans Text.Before.trans first second

theorem of_name (ordered : a.Before b) (p q : List Text) : PlaceBefore (a :: p) (b :: q) :=
  List.Lex.rel ordered

theorem cons (ordered : PlaceBefore p q) (a : Text) : PlaceBefore (a :: p) (a :: q) :=
  List.Lex.cons ordered

end PlaceBefore

end Bytewise

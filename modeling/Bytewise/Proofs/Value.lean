import Bytewise.Proofs.Text.Encoding
import Bytewise.Value.Document

/-!
# Values and their parts

The keys of settings are texts, and only an equal text is the same key (`Value.sameKey_text_iff`).
So a mapping whose keys are different texts is built up by inserting its entries one after the
other, and a value can be written if each of its parts can.

`Value.IsJson` names the values that JSON has, apart from fractions: its rule for mappings is that
keys are texts and no two are the same.
-/

namespace Bytewise.Value

variable {key v : Value} {t : Text} {items : List Value} {entries : List (Value × Value)}
  {fault? : Value → Option Fault}

/-! ## Keys -/

/-- Only a text is the same key as a text. -/
theorem sameKey_text_iff : key.sameKey (.text t) = true ↔ key = .text t := by
  cases key with
  | real d => cases whole : d.whole? <;> simp [sameKey, int?, whole]
  | _ => simp [sameKey, int?]

/-- Where no key is there twice, one differs from those in front of it. -/
theorem ne_of_nodup {rest : List (Value × Value)}
    (distinct : ((entries ++ (key, v) :: rest).map Prod.fst).Nodup) : ∀ e ∈ entries, e.1 ≠ key := by
  intro e member same
  rw [List.map_append, List.nodup_append] at distinct
  exact distinct.2.2 e.1 (List.mem_map_of_mem member) key List.mem_cons_self same

/-- A key that is not there yet goes to the end. -/
theorem insert_of_new (new : ∀ e ∈ entries, e.1 ≠ .text t) :
    insert (.text t) v entries = entries ++ [(.text t, v)] := by
  induction entries with
  | nil => rfl
  | cons e rest ih =>
      obtain ⟨k, w⟩ := e
      obtain ⟨first, others⟩ := List.forall_mem_cons.mp new
      have differs : ¬ k.sameKey (.text t) = true := fun same => first (sameKey_text_iff.mp same)
      rw [insert, if_neg differs, ih others, List.cons_append]

theorem foldl_insert {done : List (Value × Value)}
    (keys : ∀ e ∈ entries, ∃ t : Text, e.1 = .text t)
    (distinct : ((done ++ entries).map Prod.fst).Nodup) :
    entries.foldl (fun done e => insert e.1 e.2 done) done = done ++ entries := by
  induction entries generalizing done with
  | nil => simp
  | cons e rest ih =>
      obtain ⟨⟨t, named⟩, others⟩ := List.forall_mem_cons.mp keys
      obtain ⟨_, v⟩ := e
      obtain rfl := named
      have distinct' : (((done ++ [(Value.text t, v)]) ++ rest).map Prod.fst).Nodup := by
        simpa using distinct
      rw [List.foldl_cons, insert_of_new (ne_of_nodup distinct), ih others distinct']
      simp

/-- Entries with different keys are those of their mapping. -/
theorem ofEntries_of_nodup (keys : ∀ e ∈ entries, ∃ t : Text, e.1 = .text t)
    (distinct : (entries.map Prod.fst).Nodup) : ofEntries entries = .map entries := by
  rw [ofEntries, foldl_insert keys (by simpa using distinct), List.nil_append]

/-! ## Parts -/

theorem firstItemFault?_eq_none (written : ∀ v ∈ items, firstFault? fault? v = none) :
    firstItemFault? fault? items = none := by
  induction items with
  | nil => rfl
  | cons v rest ih =>
      obtain ⟨first, others⟩ := List.forall_mem_cons.mp written
      rw [firstItemFault?, first, ih others]
      rfl

theorem firstEntryFault?_eq_none (keys : ∀ e ∈ entries, firstFault? fault? e.1 = none)
    (written : ∀ e ∈ entries, firstFault? fault? e.2 = none) :
    firstEntryFault? fault? entries = none := by
  induction entries with
  | nil => rfl
  | cons e rest ih =>
      obtain ⟨k, v⟩ := e
      obtain ⟨key, otherKeys⟩ := List.forall_mem_cons.mp keys
      obtain ⟨first, others⟩ := List.forall_mem_cons.mp written
      rw [firstEntryFault?, key, first, ih otherKeys others]
      rfl

/-- The values of JSON without fractions: texts are well-formed, numbers are not too long, and the
keys of a mapping are different texts. -/
inductive IsJson : Value → Prop where
  | null : IsJson .null
  | bool (b : Bool) : IsJson (.bool b)
  | int {n : Int} (short : Numeral.isShort n = true) : IsJson (.int n)
  | text {t : Text} (printable : t.Printable) : IsJson (.text t)
  | list {items : List Value} (inside : ∀ v ∈ items, IsJson v) : IsJson (.list items)
  | map {entries : List (Value × Value)}
      (keys : ∀ e ∈ entries, ∃ t : Text, t.Printable ∧ e.1 = .text t)
      (distinct : (entries.map Prod.fst).Nodup) (inside : ∀ e ∈ entries, IsJson e.2) :
      IsJson (.map entries)

end Bytewise.Value

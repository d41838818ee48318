import Bytewise.Package.Standard
import Bytewise.Proofs.Package.Yaml
import Bytewise.Proofs.Yaml.Blocks

/-!
# Groups in block style

The reader and the writer of block style keep groups whose names can stand plain in front of their
values (`YamlPackage.standard_keepsGroups`): a member is read back on the line of its name or below
it, a group below its name, and the whole as a document.
-/

namespace Bytewise

open Yaml

variable {names : List Text} {v : Value} {entries : List (Value × Value)} {column : Nat}

/-- Names that can stand plain in front of a value. -/
def Yaml.AreKeys (names : List Text) : Prop :=
  ∀ name ∈ names, ∃ cs, IsKey cs ∧ name = Text.ofChars cs

theorem IsMember.readsMember (member : IsMember v) (narrow : column + 2 < lineWidth) :
    ReadsMember column v ∧ v.firstFault? fault? = none := by
  cases member with
  | bool b => exact ⟨readsMember_bool b, rfl⟩
  | int short => exact ⟨readsMember_int short, by simp [Value.firstFault?, fault?, short]⟩
  | text printable => exact ⟨readsMember_text printable narrow, rfl⟩
  | texts printable =>
      refine ⟨readsMember_texts printable narrow, ?_⟩
      rw [Value.firstFault?]
      refine Value.firstItemFault?_eq_none fun v member => ?_
      obtain ⟨t, _, rfl⟩ := List.mem_map.mp member
      rfl

/-- Entries whose values are read back are read back under their names, and none of their keys keeps
them from being written. -/
theorem AreNamed.readsEntry (areNamed : AreNamed names entries) (column : Nat)
    (keys : AreKeys names)
    (inside : ∀ e ∈ entries, ReadsMember column e.2 ∧ e.2.firstFault? fault? = none) :
    (∀ e ∈ entries, ReadsEntry column e) ∧ (Value.map entries).firstFault? fault? = none := by
  refine ⟨fun e member => ?_, ?_⟩
  · obtain ⟨name, listed, same⟩ := areNamed.named e member
    obtain ⟨cs, key, rfl⟩ := keys name listed
    exact ⟨⟨cs, key, same⟩, (inside e member).1⟩
  · rw [Value.firstFault?]
    refine Value.firstEntryFault?_eq_none (fun e member => ?_) fun e member => (inside e member).2
    obtain ⟨name, _, same⟩ := areNamed.named e member
    rw [same]
    rfl

theorem IsGroup.readsMember (group : IsGroup names v) (keys : AreKeys names) :
    ReadsMember 0 v ∧ v.firstFault? fault? = none := by
  obtain ⟨entries, rfl, areNamed, members⟩ := group
  obtain ⟨reads, writable⟩ := areNamed.readsEntry 2 keys fun e member =>
    (members e member).readsMember (by decide)
  exact ⟨readsMember_map reads areNamed.inhabited areNamed.distinct, writable⟩

theorem YamlPackage.standard_keepsGroups (keys : AreKeys names) :
    YamlPackage.standard.KeepsGroups names := by
  intro groups areNamed inside
  obtain ⟨reads, writable⟩ := areNamed.readsEntry 0 keys fun e member =>
    (inside e member).readsMember keys
  refine ⟨document (.map groups), ?_, ?_, ?_⟩
  · show Yaml.write _ = _
    rw [Yaml.write, writable]
  · exact (onPage_document reads areNamed.inhabited).return_not_mem
  · exact read_document reads areNamed.inhabited areNamed.distinct

end Bytewise

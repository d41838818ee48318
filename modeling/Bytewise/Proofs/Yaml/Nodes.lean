import Bytewise.Proofs.Value
import Bytewise.Yaml.Reader
import Bytewise.Yaml.Writer

/-!
# Nodes and the values they stand for

A written value is read back in two steps. The text is taken apart into the node of the value
(`Yaml.nodeOf`), and the node stands for the value (`Yaml.Means`). This module is about the second
step, as far as collections go: a mapping stands for the entries that are given if its keys are
different texts and none of them has another meaning.
-/

namespace Bytewise.Yaml

variable {v : Value} {n : Node} {items : List Value} {entries : List (Value × Value)}

/-- The node stands for the value, on whatever level it is. -/
def Means (n : Node) (v : Value) : Prop := ∀ level, make level n = .ok v

theorem Means.value (means : Means n v) : n.value = .ok v := by
  rw [Node.value, means 0]
  rfl

/-! ## The node of a value -/

mutual

/-- The node that a value is written as. -/
def nodeOf : Value → Node
  | .list items => .list (nodesOf items)
  | .map entries => .map (memberNodes entries)
  | .text t =>
    let cs := t.map fun s => s.char?.getD '\uffff'
    .scalar (styleOf cs = .plain) cs
  | v => .scalar true (writeScalar 0 0 0 v)

def nodesOf : List Value → List Node
  | [] => []
  | v :: rest => nodeOf v :: nodesOf rest

def memberNodes : List (Value × Value) → List (Node × Node)
  | [] => []
  | (k, v) :: rest => (nodeOf k, nodeOf v) :: memberNodes rest

end

theorem nodeOf_text (cs : List Char) :
    nodeOf (.text (Text.ofChars cs)) = .scalar (styleOf cs = .plain) cs := by
  simp only [nodeOf, Text.map_getD_ofChars]

theorem nodeOf_bool (b : Bool) :
    nodeOf (.bool b) = .scalar true (if b then "true".toList else "false".toList) := by
  simp [nodeOf, writeScalar]

theorem nodeOf_int (z : Int) : nodeOf (.int z) = .scalar true (Numeral.decimal z) := by
  simp [nodeOf, writeScalar]

/-! ## Collections -/

theorem makeItems_nodesOf (inside : ∀ v ∈ items, Means (nodeOf v) v) (level : Nat) :
    makeItems level (nodesOf items) = .ok items := by
  induction items with
  | nil => rfl
  | cons v rest ih =>
      obtain ⟨first, others⟩ := List.forall_mem_cons.mp inside
      rw [nodesOf, makeItems, first level, ih others]
      rfl

theorem means_list (inside : ∀ v ∈ items, Means (nodeOf v) v) :
    Means (nodeOf (.list items)) (.list items) := by
  intro level
  rw [nodeOf, make, makeItems_nodesOf inside]
  rfl

theorem Means.makeKey {plain : Bool} {text : List Char} (means : Means (.scalar plain text) v)
    (level : Nat) : makeKey level (.scalar plain text) = .ok v := by
  have made := means level
  rwa [make] at made

theorem makeEntries_memberNodes
    (keys : ∀ e ∈ entries, ∃ cs, e.1 = .text (Text.ofChars cs) ∧ Means (nodeOf e.1) e.1)
    (inside : ∀ e ∈ entries, Means (nodeOf e.2) e.2) (level : Nat) :
    makeEntries level (memberNodes entries) = .ok entries := by
  induction entries with
  | nil => rfl
  | cons e rest ih =>
      obtain ⟨⟨cs, named, means⟩, otherKeys⟩ := List.forall_mem_cons.mp keys
      obtain ⟨first, others⟩ := List.forall_mem_cons.mp inside
      obtain ⟨k, v⟩ := e
      obtain rfl := named
      rw [nodeOf_text] at means
      rw [memberNodes, nodeOf_text, makeEntries, means.makeKey level, first level,
        ih otherKeys others]
      rfl

theorem means_map
    (keys : ∀ e ∈ entries, ∃ cs, e.1 = .text (Text.ofChars cs) ∧ Means (nodeOf e.1) e.1)
    (inside : ∀ e ∈ entries, Means (nodeOf e.2) e.2) (distinct : (entries.map Prod.fst).Nodup) :
    Means (nodeOf (.map entries)) (.map entries) := by
  have texts : ∀ e ∈ entries, ∃ t : Text, e.1 = .text t := by
    intro e member
    obtain ⟨cs, named, -⟩ := keys e member
    exact ⟨_, named⟩
  intro level
  rw [nodeOf, make, makeEntries_memberNodes keys inside]
  exact congrArg Except.ok (Value.ofEntries_of_nodup texts distinct)

/-- A mapping is built of its entries if none of its keys has another meaning. -/
theorem Node.ofEntries_of_forall {es : List (Node × Node)}
    (keys : ∀ e ∈ es, e.1.isMerge = false ∧ e.1.asKey = e.1) : Node.ofEntries es = .map es := by
  have own : es.filter (fun e => !e.1.isMerge) = es :=
    List.filter_eq_self.mpr fun e member => by rw [(keys e member).1]; rfl
  have none : es.filter (fun e => e.1.isMerge) = [] :=
    List.filter_eq_nil_iff.mpr fun e member => by simp [(keys e member).1]
  have same : es.map (fun e => (e.1.asKey, e.2)) = es := by
    rw [List.map_congr_left (g := id) fun e member => by rw [(keys e member).2]; rfl]
    exact List.map_id es
  simp only [Node.ofEntries, own, none, same, List.mapM_nil]
  rfl

end Bytewise.Yaml

import Bytewise.Yaml.Scalar

/-!
# Nodes

A text is taken apart into nodes first: scalars, lists and mappings. What a scalar stands for does
not matter to this, so a text that is not in the format is found out before any of its scalars is
refused.

The value of a node is made afterwards, level by level: a collection is filled when all that are
less deep have been filled. So of several faults the one that is met is the least deep, and of these
the first (`Yaml.both`).

What stands under the key `<<` is a mapping, or a list of mappings, whose entries are taken over.
They are put in front of the others when the node is built (`Node.ofEntries`), so that the others
have the last word.
-/

namespace Bytewise.Yaml

/-- A part of a text in the format. -/
inductive Node where
  /-- A scalar, plain or not, with its text. -/
  | scalar (plain : Bool) (text : List Char)
  | list (items : List Node)
  | map (entries : List (Node × Node))
  /-- A mapping that is to take over the entries of something that has none. -/
  | unmergeable

namespace Node

/-- The node of a place where nothing stands. -/
def null : Node := .scalar true []

/-- Is this the key of what is taken over? -/
def isMerge : Node → Bool
  | .scalar true ['<', '<'] => true
  | _ => false

def asKey : Node → Node
  | .scalar true ['='] => .scalar false ['=']
  | n => n

def entries? : Node → Option (List (Node × Node))
  | .map entries => some entries
  | _ => none

/-- The entries that are taken over from a mapping or a list of mappings. The first mapping of a
list has the last word. -/
def takenOver? : Node → Option (List (Node × Node))
  | .list items => (items.reverse.mapM entries?).map List.flatten
  | n => n.entries?

/-- The mapping with some entries, behind those that it takes over. -/
def ofEntries (entries : List (Node × Node)) : Node :=
  let own := entries.filter fun e => !e.1.isMerge
  match (entries.filter fun e => e.1.isMerge).mapM fun e => e.2.takenOver? with
  | some taken => .map (taken.flatten ++ own.map fun e => (e.1.asKey, e.2))
  | none => .unmergeable

end Node

/-! ## Values -/

/-- What is made of a part, or the fault that is met with the level on which it is. -/
abbrev Made (α : Type) := Except (Nat × DocumentFault) α

/-- Two parts put together. Of two faults the less deep one is met, or else the first. -/
def both {α β γ : Type} (f : α → β → γ) : Made α → Made β → Made γ
  | .ok a, .ok b => .ok (f a b)
  | .error e, .error e' => .error (if e'.1 < e.1 then e' else e)
  | .error e, .ok _ => .error e
  | .ok _, .error e => .error e

def makeScalar (level : Nat) (plain : Bool) (text : List Char) : Made Value :=
  if plain then (resolve text).mapError fun fault => (level, fault)
  else .ok (.text (Text.ofChars text))

/-- The value of a key on a level. Only a scalar can be one. -/
def makeKey (level : Nat) : Node → Made Value
  | .scalar plain text => makeScalar level plain text
  | _ => .error (level, .malformed)

mutual

/-- The value of a node on a level. What a collection holds is on the next one. -/
def make (level : Nat) : Node → Made Value
  | .scalar plain text => makeScalar level plain text
  | .list items => (makeItems (level + 1) items).map .list
  | .map entries => (makeEntries (level + 1) entries).map Value.ofEntries
  | .unmergeable => .error (level + 1, .malformed)

def makeItems (level : Nat) : List Node → Made (List Value)
  | [] => .ok []
  | n :: rest => both List.cons (make level n) (makeItems level rest)

def makeEntries (level : Nat) : List (Node × Node) → Made (List (Value × Value))
  | [] => .ok []
  | (key, n) :: rest =>
    both List.cons (both Prod.mk (makeKey level key) (make level n)) (makeEntries level rest)

end

def Node.value (n : Node) : Except DocumentFault Value := (make 0 n).mapError Prod.snd

end Bytewise.Yaml

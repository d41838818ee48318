import Bytewise.Stream
import Bytewise.Value.Double

/-!
# Values of settings

A settings file holds values of any kind, and loading does not check them: a size may be a text and
a switch may be a list. `Value` is that dynamic value. The tools decide what a value means when they
use it, and refuse it there if its kind does not fit.

A mapping keeps the order in which its keys first appeared. Bytes, tuples and sets come only from
tags of a file; the items of a set are in the order in which it is gone through.
-/

namespace Bytewise

inductive Value where
  | null
  | bool (b : Bool)
  | int (n : Int)
  | real (x : Double)
  | text (t : Text)
  | bytes (data : Bytes)
  /-- A date or a time, kept as it is written. -/
  | moment (written : Text)
  | list (items : List Value)
  | tuple (items : List Value)
  | set (items : List Value)
  | map (entries : List (Value × Value))
  deriving Repr, Inhabited

namespace Value

instance : Coe String Value := ⟨fun s => .text (Text.ofString s)⟩

/-- Nothing, no, zero and whatever is empty count as false. -/
def truthy : Value → Bool
  | .null => false
  | .bool b => b
  | .int n => n != 0
  | .real x => !x.isZero
  | .text t => !t.isEmpty
  | .bytes data => !data.isEmpty
  | .moment _ => true
  | .list items => !items.isEmpty
  | .tuple items => !items.isEmpty
  | .set items => !items.isEmpty
  | .map entries => !entries.isEmpty

/-- The whole number a value stands for; yes and no count as one and zero. -/
def int? : Value → Option Int
  | .bool b => some (if b then 1 else 0)
  | .int n => some n
  | _ => none

mutual

/-- Are two values the same key of a mapping? Numbers are, if they are equal as numbers. -/
def sameKey : Value → Value → Bool
  | .null, .null => true
  | .text s, .text t => s == t
  | .bytes a, .bytes b => a == b
  | .moment s, .moment t => s == t
  | .tuple items, .tuple others => sameKeys items others
  | .real x, .real y => x.same y
  | .real x, v => x.whole?.isSome && x.whole? == v.int?
  | v, .real x => x.whole?.isSome && x.whole? == v.int?
  | v, w => v.int?.isSome && v.int? == w.int?

/-- Are the items of two tuples the same, one by one? -/
def sameKeys : List Value → List Value → Bool
  | [], [] => true
  | v :: items, w :: others => v.sameKey w && sameKeys items others
  | _, _ => false

end

def lookup (key : Value) : List (Value × Value) → Option Value
  | [] => none
  | (k, v) :: rest => if k.sameKey key then some v else lookup key rest

/-- Give a key a value; a key that is there keeps its place. -/
def insert (key value : Value) : List (Value × Value) → List (Value × Value)
  | [] => [(key, value)]
  | (k, v) :: rest => if k.sameKey key then (k, value) :: rest else (k, v) :: insert key value rest

def ofEntries (entries : List (Value × Value)) : Value :=
  .map (entries.foldl (fun done e => insert e.1 e.2 done) [])

mutual

/-- May the value be a key? Lists, sets and mappings may not, nor what holds one. -/
def isKey : Value → Bool
  | .list _ => false
  | .set _ => false
  | .map _ => false
  | .tuple items => areKeys items
  | _ => true

def areKeys : List Value → Bool
  | [] => true
  | v :: rest => v.isKey && areKeys rest

end

def kind : Value → Text
  | .null => "NoneType"
  | .bool _ => "bool"
  | .int _ => "int"
  | .real _ => "float"
  | .text _ => "str"
  | .bytes _ => "bytes"
  | .moment _ => "datetime.date"
  | .list _ => "list"
  | .tuple _ => "tuple"
  | .set _ => "set"
  | .map _ => "dict"

mutual

def inspect : Value → Text
  | .null => "None"
  | .bool b => if b then "True" else "False"
  | .int n => Text.ofChars (Numeral.decimal n)
  | .real x => Text.ofChars x.write
  | .text t => t.quoted
  | .bytes data => "b" ++ Text.quotedBytes data
  | .moment t => t
  | .list items => "[" ++ inspectItems items ++ "]"
  | .tuple items => match items with
    | [v] => "(" ++ inspect v ++ ",)"
    | items => "(" ++ inspectItems items ++ ")"
  | .set items => match items with
    | [] => "set()"
    | items => "\x7b" ++ inspectItems items ++ "\x7d"
  | .map entries => "\x7b" ++ inspectEntries entries ++ "\x7d"

def inspectItems : List Value → Text
  | [] => []
  | [v] => inspect v
  | v :: w :: rest => inspect v ++ ", " ++ inspectItems (w :: rest)

def inspectEntries : List (Value × Value) → Text
  | [] => []
  | [(k, v)] => inspect k ++ ": " ++ inspect v
  | (k, v) :: e :: rest => inspect k ++ ": " ++ inspect v ++ ", " ++ inspectEntries (e :: rest)

end

/-- A value as text: a text is shown as it is. -/
def shown : Value → Text
  | .text t => t
  | v => v.inspect

/-- What a value yields when it is gone through item by item: the items of a list, the keys of a
mapping, the characters of a text, the numbers of bytes. -/
def items? : Value → Option (List Value)
  | .list items => some items
  | .tuple items => some items
  | .set items => some items
  | .bytes data => some (data.map fun b => .int b.toNat)
  | .map entries => some (entries.map Prod.fst)
  | .text t => some (t.map fun s => .text [s])
  | _ => none

end Value

/-- A value as a read size: nothing asks for everything. -/
def ReadSize.ofValue : Value → ReadSize
  | .null => .everything
  | v => match v.int? with
    | some n => ReadSize.ofInt n
    | none => .notNumber

end Bytewise

import Bytewise.Source.Classifier

/-!
# Totals by language

The counts of a survey are summed by language. Languages appear in the order in which they were
first counted, under the name they had then.
-/

namespace Bytewise

structure FileCounts where
  path : Text
  /-- The identifier of the language that the lines were classified in. -/
  languageId : Int
  tally : LineTally
  size : Nat
  deriving DecidableEq, Repr

def Classifier.count (c : Classifier) (path : Text) (data : Bytes) : FileCounts :=
  ⟨path, c.language.id, c.markers.classify {} data, data.length⟩

/-- Summed counts of files. -/
structure Totals where
  name : Text
  files : Int := 0
  code : Int := 0
  comment : Int := 0
  blank : Int := 0
  bytes : Int := 0
  deriving DecidableEq, Repr

namespace Totals

def total (t : Totals) : Int := t.code + t.comment + t.blank

/-- Add other counts; the name stays. -/
def plus (t u : Totals) : Totals where
  name := t.name
  files := t.files + u.files
  code := t.code + u.code
  comment := t.comment + u.comment
  blank := t.blank + u.blank
  bytes := t.bytes + u.bytes

def ofFile (name : Text) (c : FileCounts) : Totals where
  name := name
  files := 1
  code := c.tally.code
  comment := c.tally.comment
  blank := c.tally.blank
  bytes := c.size

end Totals

/-- Totals by language identifier, in the order of first appearance. -/
abbrev Aggregate := List (Int × Totals)

namespace Aggregate

def add (id : Int) (counts : Totals) : Aggregate → Aggregate
  | [] => [(id, counts)]
  | (other, totals) :: rest =>
    if other = id then (other, totals.plus counts) :: rest
    else (other, totals) :: add id counts rest

/-- Add the counts of a file under the language detected for it. -/
def addFile (a : Aggregate) (counted : FileCounts × Language) : Aggregate :=
  a.add counted.2.id (Totals.ofFile counted.2.name counted.1)

def languages (a : Aggregate) : List Totals := a.map Prod.snd

def grandTotal (a : Aggregate) : Totals := a.languages.foldl Totals.plus { name := "Total" }

end Aggregate

end Bytewise

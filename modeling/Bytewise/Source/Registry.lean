import Bytewise.FileTree.Basic
import Bytewise.Source.Language
import Bytewise.Stream

/-!
# The registry of languages

Languages are registered in order. Identifiers and names are unique; an extension belongs to the
language that claimed it first. The extension `.h` is shared by two languages: a header is taken for
C++ if its beginning holds a word that only C++ has, provided that C++ is registered.
-/

namespace Bytewise

/-- The registered languages in order, and the owner of each extension. -/
structure Registry where
  languages : List Language := []
  owners : List (Text × Language) := []
  ids_distinct : languages.Pairwise (·.id ≠ ·.id) := by simp
  names_distinct : languages.Pairwise (·.name ≠ ·.name) := by simp
  owners_registered : ∀ owner ∈ owners, owner.2 ∈ languages := by simp

namespace Registry

def empty : Registry := {}

def detect (r : Registry) (extension : Text) : Option Language := r.owners.lookup extension

def supports (r : Registry) (extension : Text) : Bool := (r.owners.map Prod.fst).contains extension

def byName (r : Registry) (name : Text) : Option Language := r.languages.find? (·.name = name)

/-- The first conflict of a language with those registered. -/
def conflict? (l : Language) : List Language → Option Fault
  | [] => none
  | other :: rest =>
    if other.id = l.id then some (.duplicateId l.id l.name)
    else if other.name = l.name then some (.duplicateName l.name)
    else conflict? l rest

theorem conflict?_eq_none_iff {l : Language} {others : List Language} :
    conflict? l others = none ↔ ∀ other ∈ others, other.id ≠ l.id ∧ other.name ≠ l.name := by
  induction others with
  | nil => simp [conflict?]
  | cons other rest ih =>
      rw [conflict?, List.forall_mem_cons]
      by_cases sameId : other.id = l.id
      · simp [sameId]
      · by_cases sameName : other.name = l.name
        · simp [sameId, sameName]
        · simp [sameId, sameName, ih]

/-- Put a language that conflicts with none at the end of the table. -/
def enter (r : Registry) (l : Language) (free : conflict? l r.languages = none) : Registry :=
  have distinct := conflict?_eq_none_iff.mp free
  { r with
    languages := r.languages ++ [l]
    ids_distinct := List.pairwise_append.mpr
      ⟨r.ids_distinct, by simp, fun other member _ last =>
        List.mem_singleton.mp last ▸ (distinct other member).1⟩
    names_distinct := List.pairwise_append.mpr
      ⟨r.names_distinct, by simp, fun other member _ last =>
        List.mem_singleton.mp last ▸ (distinct other member).2⟩
    owners_registered := fun owner member =>
      List.mem_append_left _ (r.owners_registered owner member) }

/-- The owners once a language has claimed an extension, which it gets if nobody owns it. -/
def claimed (l : Language) (owners : List (Text × Language)) (extension : Text) :
    List (Text × Language) :=
  if (owners.lookup extension).isSome then owners else owners ++ [(extension, l)]

theorem mem_claimed {l : Language} {extension : Text} {owners : List (Text × Language)}
    {owner : Text × Language} (member : owner ∈ claimed l owners extension) :
    owner ∈ owners ∨ owner.2 = l := by
  rw [claimed] at member
  split at member
  · exact .inl member
  · obtain before | rfl := List.mem_append.mp member |>.imp_right List.mem_singleton.mp
    · exact .inl before
    · exact .inr rfl

/-- Let a language of the table claim an extension. -/
def claim (r : Registry) (l : Language) (extension : Text) : Registry :=
  if registered : l ∈ r.languages then
    { r with
      owners := claimed l r.owners extension
      owners_registered := fun owner member => (mem_claimed member).elim
        (r.owners_registered owner) (fun new => new ▸ registered) }
  else r

end Registry

/-- Work on a registry. What was changed before a fault stays changed. -/
abbrev Registering := ExceptT Fault (StateM Registry)

namespace Registry

/-- Register a language: it is put into the table, and then it claims its extensions one by one. -/
def register (l : Language) : Registering Unit := do
  let r ← get
  match free : conflict? l r.languages with
  | some fault => throw fault
  | none =>
    set (r.enter l free)
    l.extensions.forM fun extension => modify (·.claim l extension)

/-- Register languages until one fails; those before it stay registered. -/
def registerAll (languages : List Language) : Registering Unit := languages.forM register

/-- What a registry is after some work, and the fault that ended it, if one did. -/
def after (r : Registry) (work : Registering Unit) : Registry × Option Fault :=
  match work.run.run r with
  | (.ok (), r) => (r, none)
  | (.error fault, r) => (r, some fault)

/-- What a registry is after an attempt to register a language, and the fault if it was refused. -/
def attempt (r : Registry) (l : Language) : Registry × Option Fault := r.after (register l)

end Registry

/-! ## Headers -/

/-- The extension that two languages share. -/
def headerExtension : Text := ".h"

/-- The language that a header may belong to instead. -/
def headerAlternative : Text := "C++"

def alternativeWords : List Bytes :=
  ["class", "namespace", "template", "typename", "operator", "virtual", "public:", "private:",
    "protected:", "friend"].map fun w => (Text.ofString w).encode

def occursIn (word : Bytes) : Bytes → Bool
  | [] => word.isEmpty
  | b :: rest => if word.isPrefixOf (b :: rest) then true else occursIn word rest

/-- Does the beginning of a header look like C++? -/
def looksLikeAlternative (content : Bytes) : Bool := alternativeWords.any (occursIn · content)

/-- The bytes of a header that are looked at where no setting says how many. -/
def defaultSniff : ReadSize := .atMost 4096

/-- The outcome of detecting a file's language, and a note for the log if its content could not be
looked at. -/
structure Detection where
  language : Except Fault (Option Language)
  note : Option Text := none

/-- Detect the language of a file from its name, and of a header from its beginning. A header that
cannot be opened keeps the language of its extension. -/
def Registry.detectFile (r : Registry) (t : FileTree) (name : Text) (sniff : ReadSize) :
    Detection :=
  let extension := (Path.ofText name).extension
  match r.detect extension with
  | none => ⟨.ok none, none⟩
  | some language =>
    if extension ≠ headerExtension then ⟨.ok (some language), none⟩
    else match r.byName headerAlternative with
      | none => ⟨.ok (some language), none⟩
      | some alternative =>
        match t.openRaw name with
        | .error (.system cause) =>
          ⟨.ok (some language), some ("Cannot sniff header " ++ name ++ ": " ++
            cause.logged (some name) ++ "; assuming " ++ language.name)⟩
        | .error fault => ⟨.error fault, none⟩
        | .ok data =>
          match (Stream.ofFile data).read sniff with
          | .error fault => ⟨.error fault, none⟩
          | .ok (head, _) =>
            ⟨.ok (some (if looksLikeAlternative head then alternative else language)), none⟩

end Bytewise

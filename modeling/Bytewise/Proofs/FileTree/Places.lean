import Bytewise.FileTree.Basic
import Bytewise.Proofs.Path

/-!
# Places in a file tree

A file system keeps the names in each directory apart, and every name can be written as one part of
a path. In such a tree `Node.at?` says what stands at a place, following directories only, and a
path leads to the same node as the place does (`FileTree.find_child`): as long as the directories on
the way can be searched and the path is not too long, the links that the path may have led through
before make no difference.
-/

namespace Bytewise

structure IsName (name : Text) : Prop where
  ne_nil : name ≠ []
  ne_dot : name ≠ Text.ofString "."
  ne_dots : name ≠ Text.ofString ".."
  no_slash : Path.slash ∉ name
  no_nul : .char '\x00' ∉ name
  short : name.encode.length ≤ FileTree.partLimit

instance (name : Text) : Decidable (IsName name) :=
  decidable_of_iff
    (name ≠ [] ∧ name ≠ Text.ofString "." ∧ name ≠ Text.ofString ".." ∧ Path.slash ∉ name ∧
      .char '\x00' ∉ name ∧ name.encode.length ≤ FileTree.partLimit)
    ⟨fun ⟨a, b, c, d, e, f⟩ => ⟨a, b, c, d, e, f⟩, fun ⟨a, b, c, d, e, f⟩ => ⟨a, b, c, d, e, f⟩⟩

/-- Directories hold names, and each name once. -/
inductive Node.WellFormed : Node → Prop where
  | file (access : Access) (data : Bytes) : WellFormed (.file access data)
  | link (target : Text) : WellFormed (.link target)
  | directory (access : Access) (entries : List (Text × Node))
      (distinct : (entries.map Prod.fst).Nodup) (names : ∀ e ∈ entries, IsName e.1)
      (inside : ∀ e ∈ entries, e.2.WellFormed) : WellFormed (.directory access entries)

/-- A tree that a file system can hold. -/
def FileTree.WellFormed (t : FileTree) : Prop := (Node.directory {} t).WellFormed

/-- What stands at a place below a node, where directories are followed and links are not. -/
def Node.at? : Node → List Text → Option Node
  | node, [] => some node
  | .directory _ entries, name :: rest =>
    match FileTree.lookup name entries with
    | some node => node.at? rest
    | none => none
  | _, _ :: _ => none

/-- Induction on what is in the directories of a node. -/
theorem Node.insideInduction {motive : Node → Prop}
    (file : ∀ access data, motive (.file access data)) (link : ∀ target, motive (.link target))
    (directory : ∀ access entries, (∀ e ∈ entries, motive e.2) → motive (.directory access entries))
    (node : Node) : motive node :=
  match node with
  | .file access data => file access data
  | .link target => link target
  | .directory access entries =>
    directory access entries fun e member =>
      have : sizeOf e.2 < 1 + sizeOf access + sizeOf entries := by
        have := List.sizeOf_lt_of_mem member
        obtain ⟨name, node⟩ := e
        simp at *
        omega
      insideInduction file link directory e.2
  termination_by sizeOf node

namespace FileTree

variable {entries : List (Text × Node)} {name : Text} {node : Node} {access : Access}

theorem mem_of_lookup (found : lookup name entries = some node) : (name, node) ∈ entries := by
  induction entries with
  | nil => cases found
  | cons e rest ih =>
      obtain ⟨other, node'⟩ := e
      rw [lookup] at found
      split at found
      case isTrue same =>
        cases found
        exact same ▸ List.mem_cons_self
      case isFalse => exact List.mem_cons_of_mem _ (ih found)

theorem lookup_eq_some_iff (distinct : (entries.map Prod.fst).Nodup) :
    lookup name entries = some node ↔ (name, node) ∈ entries := by
  refine ⟨mem_of_lookup, fun member => ?_⟩
  induction entries with
  | nil => cases member
  | cons e rest ih =>
      obtain ⟨other, node'⟩ := e
      rw [List.map_cons, List.nodup_cons] at distinct
      obtain same | member := List.mem_cons.mp member
      · cases same
        rw [lookup, if_pos rfl]
      · have differs : other ≠ name := by
          rintro rfl
          exact distinct.1 (List.mem_map.mpr ⟨(other, node), member, rfl⟩)
        rw [lookup, if_neg differs, ih distinct.2 member]

end FileTree

namespace Node

variable {entries : List (Text × Node)} {name : Text} {node : Node} {access : Access}

theorem isDirectory_iff :
    node.isDirectory = true ↔ ∃ access entries, node = .directory access entries := by
  cases node <;> simp [isDirectory]

@[simp] theorem at?_nil (node : Node) : node.at? [] = some node := by cases node <;> rfl

/-- A place below a directory leads through one of its entries. -/
theorem at?_cons_eq_some_iff {rest : List Text} {target : Node} :
    node.at? (name :: rest) = some target ↔
      ∃ access entries inner, node = .directory access entries ∧
        FileTree.lookup name entries = some inner ∧ inner.at? rest = some target := by
  cases node with
  | file => simp [at?]
  | link => simp [at?]
  | directory access entries =>
      cases found : FileTree.lookup name entries with
      | none => simp [at?, found]
      | some inner =>
          simp only [at?, found]
          constructor
          · intro inside
            exact ⟨access, entries, inner, rfl, found, inside⟩
          · rintro ⟨_, _, inner', same, found', inside⟩
            cases same
            cases found.symm.trans found'
            exact inside

namespace WellFormed

theorem entries_distinct (wellFormed : (Node.directory access entries).WellFormed) :
    (entries.map Prod.fst).Nodup := by
  cases wellFormed
  assumption

theorem isName (wellFormed : (Node.directory access entries).WellFormed)
    (member : (name, node) ∈ entries) : IsName name := by
  cases wellFormed with
  | directory _ _ _ names _ => exact names _ member

theorem inside (wellFormed : (Node.directory access entries).WellFormed)
    (member : (name, node) ∈ entries) : node.WellFormed := by
  cases wellFormed with
  | directory _ _ _ _ inside => exact inside _ member

theorem lookup_eq_some_iff (wellFormed : (Node.directory access entries).WellFormed) :
    FileTree.lookup name entries = some node ↔ (name, node) ∈ entries :=
  FileTree.lookup_eq_some_iff wellFormed.entries_distinct

theorem at?_cons {rest : List Text} (wellFormed : (Node.directory access entries).WellFormed)
    (member : (name, node) ∈ entries) :
    (Node.directory access entries).at? (name :: rest) = node.at? rest := by
  simp [at?, wellFormed.lookup_eq_some_iff.mpr member]

/-- Every part of a place where something stands is a name. -/
theorem isName_of_at? {place : List Text} {target : Node} (wellFormed : node.WellFormed)
    (found : node.at? place = some target) : ∀ name ∈ place, IsName name := by
  induction place generalizing node with
  | nil => simp
  | cons name rest ih =>
      obtain ⟨access, entries, inner, rfl, entry, inside⟩ := at?_cons_eq_some_iff.mp found
      have member := wellFormed.lookup_eq_some_iff.mp entry
      exact List.forall_mem_cons.mpr
        ⟨wellFormed.isName member, ih (wellFormed.inside member) inside⟩

end WellFormed

end Node

/-! ## Paths and places -/

namespace Path

variable {p : Path} {name : Text}

theorem Normal.child (normal : p.Normal) (isName : IsName name) : (p.child name).Normal := by
  intro part member
  obtain inside | same := List.mem_append.mp member
  · exact normal part inside
  · rw [List.mem_singleton.mp same]
    exact ⟨isName.ne_nil, isName.ne_dot, isName.no_slash⟩

theorem Normal.below {names : List Text} (normal : p.Normal)
    (areNames : ∀ name ∈ names, IsName name) : (p.below names).Normal := by
  induction names generalizing p with
  | nil => simpa using normal
  | cons name rest ih =>
      rw [List.forall_mem_cons] at areNames
      rw [← below_child]
      exact ih (normal.child areNames.1) areNames.2

/-- Different places below a directory have different texts. -/
theorem Normal.place_eq_of_toText_eq {place place' : List Text} (normal : p.Normal)
    (areNames : ∀ name ∈ place, IsName name) (areNames' : ∀ name ∈ place', IsName name)
    (same : (p.below place).toText = (p.below place').toText) : place = place' := by
  have paths := (toText_inj (normal.below areNames) (normal.below areNames')).mp same
  exact List.append_cancel_left (congrArg Path.parts paths)

/-- The text of an entry of the directory that a relative path leads to. -/
theorem toText_child (relative : p.absolute = false) (normal : p.Normal) (isName : IsName name) :
    (p.child name).toText = if p.parts = [] then name else p.toText ++ slash :: name := by
  have inner := normal.child isName
  rw [toText_of_relative (p := p.child name) relative inner (by simp [Path.child])]
  by_cases empty : p.parts = []
  · simp [Path.child, empty, Text.join]
  · rw [if_neg empty, toText_of_relative relative normal empty, Path.child,
      Text.join_concat empty]
    simp

/-- The parts by which the system follows the text of an entry. -/
theorem splitAt_toText_child (relative : p.absolute = false) (normal : p.Normal)
    (isName : IsName name) : (p.child name).toText.splitAt slash = p.parts ++ [name] := by
  have inner := normal.child isName
  rw [toText_of_relative (p := p.child name) relative inner (by simp [Path.child]),
    Text.splitAt_join (by simp [Path.child]) inner.slash_not_mem, Path.child]

end Path

namespace FileTree

variable {t : FileTree} {links : Nat} {trail trail' : List (Text × Node)} {todo : List Text}
  {text : Text} {node : Node}

/-- A directory whose entries can be reached. -/
def Searchable (node : Node) : Prop :=
  ∃ access entries, node = .directory access entries ∧ access.search = true

/-- A directory that can be searched is asked for a name, with what it has under that name. -/
structure Asked (node : Node) (part : Text) (answer : Option Node) : Prop where
  directory : ∃ access entries, node = .directory access entries ∧ access.search = true ∧
    lookup part entries = answer
  ne_nil : part ≠ []
  ne_dot : part ≠ Text.ofString "."
  ne_dots : part ≠ Text.ofString ".."
  short : part.encode.length ≤ partLimit

theorem asked_of_isName {access : Access} {entries : List (Text × Node)} {name : Text}
    (here : node = .directory access entries) (search : access.search = true)
    (isName : IsName name) : Asked node name (lookup name entries) where
  directory := ⟨access, entries, here, search, rfl⟩
  ne_nil := isName.ne_nil
  ne_dot := isName.ne_dot
  ne_dots := isName.ne_dots
  short := isName.short

/-! ## One part of a name -/

section Steps

variable {missing : WhenMissing} {part target : Text} {rest : List Text} {entry : Text × Node}
  {outer : List (Text × Node)}

theorem follow_nil : follow t missing links trail [] = .ok trail := by
  rw [follow]

theorem follow_empty (here : (reached t trail).isDirectory = true) :
    follow t missing links trail ([] :: rest) = follow t missing links trail rest := by
  obtain ⟨access, entries, here⟩ := Node.isDirectory_iff.mp here
  rw [follow.eq_def]
  simp only [here, List.isEmpty_nil, ↓reduceIte]

theorem follow_dot (here : Searchable (reached t trail)) :
    follow t missing links trail (Text.ofString "." :: rest) =
      follow t missing links trail rest := by
  obtain ⟨access, entries, here, search⟩ := here
  have nonempty : ¬ (Text.ofString ".").isEmpty = true := by decide
  rw [follow.eq_def]
  simp only [here, nonempty, search, Bool.not_true, Bool.false_eq_true, ↓reduceIte]

theorem follow_dots (here : Searchable (reached t (entry :: outer))) :
    follow t missing links (entry :: outer) (Text.ofString ".." :: rest) =
      follow t missing links outer rest := by
  obtain ⟨access, entries, here, search⟩ := here
  have nonempty : ¬ (Text.ofString "..").isEmpty = true := by decide
  have notDot : Text.ofString ".." ≠ Text.ofString "." := by decide
  rw [follow.eq_def]
  simp only [here, nonempty, search, notDot, Bool.not_true, Bool.false_eq_true, ↓reduceIte]

theorem follow_link (asked : Asked (reached t trail) part (some (.link target)))
    (relative : target.head? ≠ some Path.slash) :
    follow t missing (links + 1) trail (part :: rest) =
      follow t missing links trail (target.splitAt Path.slash ++ rest) := by
  obtain ⟨⟨access, entries, here, search, found⟩, nonempty, dot, dots, short⟩ := asked
  rw [follow.eq_def]
  simp only [here, List.isEmpty_eq_false_iff.mpr nonempty, search, dot, dots,
    Nat.not_lt.mpr short, found, relative, Bool.not_true, Bool.false_eq_true, ↓reduceIte]

theorem follow_name (asked : Asked (reached t trail) part (some node))
    (plain : ∀ target, node ≠ .link target) :
    follow t missing links trail (part :: rest) =
      follow t missing links ((part, node) :: trail) rest := by
  obtain ⟨⟨access, entries, here, search, found⟩, nonempty, dot, dots, short⟩ := asked
  rw [follow.eq_def]
  cases node with
  | link target => exact absurd rfl (plain target)
  | _ =>
      simp only [here, List.isEmpty_eq_false_iff.mpr nonempty, search, dot, dots,
        Nat.not_lt.mpr short, found, Bool.not_true, Bool.false_eq_true, ↓reduceIte]

end Steps

/-- The rules by which the parts of a name lead from one trail to another. -/
inductive Leads (t : FileTree) (missing : WhenMissing) :
    Nat → List (Text × Node) → List Text → List (Text × Node) → Prop where
  | arrived (links : Nat) (trail : List (Text × Node)) : Leads t missing links trail [] trail
  | empty {links : Nat} {trail trail' : List (Text × Node)} {rest : List Text}
      (here : (reached t trail).isDirectory = true)
      (next : Leads t missing links trail rest trail') :
      Leads t missing links trail ([] :: rest) trail'
  | dot {links : Nat} {trail trail' : List (Text × Node)} {rest : List Text}
      (here : Searchable (reached t trail))
      (next : Leads t missing links trail rest trail') :
      Leads t missing links trail (Text.ofString "." :: rest) trail'
  | dots {links : Nat} {outer trail' : List (Text × Node)} {entry : Text × Node}
      {rest : List Text} (here : Searchable (reached t (entry :: outer)))
      (next : Leads t missing links outer rest trail') :
      Leads t missing links (entry :: outer) (Text.ofString ".." :: rest) trail'
  | link {links : Nat} {trail trail' : List (Text × Node)} {part target : Text}
      {rest : List Text} (asked : Asked (reached t trail) part (some (.link target)))
      (relative : target.head? ≠ some Path.slash)
      (next : Leads t missing links trail (target.splitAt Path.slash ++ rest) trail') :
      Leads t missing (links + 1) trail (part :: rest) trail'
  | name {links : Nat} {trail trail' : List (Text × Node)} {part : Text} {node : Node}
      {rest : List Text} (asked : Asked (reached t trail) part (some node))
      (plain : ∀ target, node ≠ .link target)
      (next : Leads t missing links ((part, node) :: trail) rest trail') :
      Leads t missing links trail (part :: rest) trail'
  | missing {links : Nat} {trail trail' : List (Text × Node)} {part : Text} {rest : List Text}
      (asked : Asked (reached t trail) part none) (made : missing trail part rest = .ok trail') :
      Leads t missing links trail (part :: rest) trail'

theorem leads_of_follow {missing : WhenMissing}
    (arrives : follow t missing links trail todo = .ok trail') :
    Leads t missing links trail todo trail' := by
  fun_induction follow t missing links trail todo with
  | case1 links trail =>
      cases arrives
      exact .arrived links trail'
  | case2 links trail part todo access entries here empty ih =>
      rw [List.isEmpty_iff.mp empty]
      exact .empty (Node.isDirectory_iff.mpr ⟨access, entries, here⟩) (ih arrives)
  | case4 links trail todo access entries here search nonempty ih =>
      exact .dot ⟨access, entries, here, by simpa using search⟩ (ih arrives)
  | case6 links todo access entries search head outer here nonempty dot ih =>
      exact .dots ⟨access, entries, here, by simpa using search⟩ (ih arrives)
  | case8 links trail part todo access entries here nonempty search dot dots short found =>
      refine .missing ⟨⟨access, entries, here, by simpa using search, found⟩, ?_, dot, dots,
        Nat.not_lt.mp short⟩ arrives
      simpa using nonempty
  | case11 trail part todo access entries here nonempty search dot dots short target found links
      relative ih =>
      refine .link ⟨⟨access, entries, here, by simpa using search, found⟩, ?_, dot, dots,
        Nat.not_lt.mp short⟩ relative (ih arrives)
      simpa using nonempty
  | case12 links trail part todo access entries here nonempty search dot dots short node plain
      found ih =>
      refine .name ⟨⟨access, entries, here, by simpa using search, found⟩, ?_, dot, dots,
        Nat.not_lt.mp short⟩ plain (ih arrives)
      simpa using nonempty
  | _ => cases arrives

/-- Following more parts goes on from where following the first ones ended; only the number of links
still allowed has changed by then. -/
theorem walk_append (rest : List Text) (arrives : walk t links trail todo = .ok trail') :
    ∃ left, walk t links trail (todo ++ rest) = walk t left trail' rest := by
  replace arrives := leads_of_follow arrives
  induction arrives with
  | arrived links trail => exact ⟨links, rfl⟩
  | empty here next ih =>
      rw [List.cons_append, walk, follow_empty here]
      exact ih
  | dot here next ih =>
      rw [List.cons_append, walk, follow_dot here]
      exact ih
  | dots here next ih =>
      rw [List.cons_append, walk, follow_dots here]
      exact ih
  | link asked relative next ih =>
      rw [List.cons_append, walk, follow_link asked relative, ← List.append_assoc]
      exact ih
  | name asked plain next ih =>
      rw [List.cons_append, walk, follow_name asked plain]
      exact ih
  | missing _ made => cases made

/-- One name more, where a directory with an entry of that name has been reached. -/
theorem walk_name {access : Access} {entries : List (Text × Node)} {name : Text}
    (here : reached t trail = .directory access entries) (search : access.search = true)
    (isName : IsName name) (found : lookup name entries = some node)
    (plain : ∀ target, node ≠ .link target) :
    walk t links trail [name] = .ok ((name, node) :: trail) := by
  have asked := asked_of_isName here search isName
  rw [found] at asked
  rw [walk, follow_name asked plain, follow_nil]

/-- A text is followed if it is a relative name that the system takes. -/
theorem locateWith_eq_ok_iff {missing : WhenMissing} {found : Located} :
    t.locateWith missing text = .ok found ↔
      .char '\x00' ∉ text ∧ text ≠ [] ∧ text.head? ≠ some Path.slash ∧
        text.encode.length ≤ nameLimit ∧
        ∃ trail, follow t missing linkLimit [] (text.splitAt Path.slash) = .ok trail ∧
          found = ⟨trail.reverse.map Prod.fst, reached t trail⟩ := by
  rw [locateWith]
  by_cases nul : .char '\x00' ∈ text
  · simp [nul]
  by_cases empty : text = []
  · simp [empty]
  by_cases slash : text.head? = some Path.slash
  · simp [nul, slash]
  by_cases long : nameLimit < text.encode.length
  · simp [nul, empty, slash, long, Nat.not_le.mpr long]
  have fits := Nat.not_lt.mp long
  cases follow t missing linkLimit [] (text.splitAt Path.slash) with
  | error cause => simp [nul, empty, slash, long]
  | ok trail =>
      have same : (⟨trail.reverse.map Prod.fst, reached t trail⟩ : Located) = found ↔
          found = ⟨trail.reverse.map Prod.fst, reached t trail⟩ := eq_comm
      simpa [nul, empty, slash, long, fits] using same

/-- A text leads to a node if it is a relative name that the system takes and following its parts
ends at the node. -/
theorem find_eq_ok_iff :
    t.find text = .ok node ↔
      .char '\x00' ∉ text ∧ text ≠ [] ∧ text.head? ≠ some Path.slash ∧
        text.encode.length ≤ nameLimit ∧
        ∃ trail, walk t linkLimit [] (text.splitAt Path.slash) = .ok trail ∧
          reached t trail = node := by
  rw [find, locate]
  constructor
  · intro found
    cases located : t.locateWith (fun _ _ _ => .error .notFound) text with
    | error fault => simp [located, Functor.map, Except.map] at found
    | ok place =>
        obtain ⟨noNul, inhabited, relative, fits, trail, walked, same⟩ :=
          locateWith_eq_ok_iff.mp located
        rw [located] at found
        cases found
        exact ⟨noNul, inhabited, relative, fits, trail, walked, by rw [same]⟩
  · rintro ⟨noNul, inhabited, relative, fits, trail, walked, rfl⟩
    rw [locateWith_eq_ok_iff.mpr ⟨noNul, inhabited, relative, fits, trail, walked, rfl⟩]
    rfl

theorem walk_dot : walk t links [] ((Text.ofString ".").splitAt Path.slash) = .ok [] := by
  have parts : (Text.ofString ".").splitAt Path.slash = [Text.ofString "."] := by decide
  rw [parts, walk, follow_dot ⟨{}, t, rfl, rfl⟩, follow_nil]

/-- A path that leads anywhere is relative. -/
theorem relative_of_find {p : Path} (found : t.find p.toText = .ok node) : p.absolute = false := by
  cases absolute : p.absolute with
  | false => rfl
  | true =>
      obtain ⟨_, _, start, _⟩ := find_eq_ok_iff.mp found
      exact absurd (by simp [Path.toText, absolute]) start

/-- The trail that the text of a relative path leaves, whether it has parts or is the text `.`. -/
theorem walk_parts {p : Path} (normal : p.Normal) (found : t.find p.toText = .ok node) :
    ∃ trail, walk t linkLimit [] p.parts = .ok trail ∧ reached t trail = node := by
  obtain ⟨_, _, _, _, trail, walked, here⟩ := find_eq_ok_iff.mp found
  have relative := relative_of_find found
  by_cases empty : p.parts = []
  · have text : p.toText = Text.ofString "." := by simp [Path.toText, relative, empty, Text.join]
    rw [text, walk_dot] at walked
    cases walked
    rw [empty]
    exact ⟨[], follow_nil, here⟩
  · rw [Path.toText_of_relative relative normal empty,
      Text.splitAt_join empty normal.slash_not_mem] at walked
    exact ⟨trail, walked, here⟩

/-- If a path leads to a directory that can be searched, the path of an entry leads to the entry. -/
theorem find_child {p : Path} {access : Access} {entries : List (Text × Node)} {name : Text}
    (normal : p.Normal) (found : t.find p.toText = .ok (.directory access entries))
    (search : access.search = true) (isName : IsName name)
    (entry : lookup name entries = some node) (plain : ∀ target, node ≠ .link target)
    (fits : (p.child name).toText.encode.length ≤ nameLimit) :
    t.find (p.child name).toText = .ok node := by
  have relative := relative_of_find found
  have inner := normal.child isName
  obtain ⟨noNul, _⟩ := find_eq_ok_iff.mp found
  obtain ⟨trail, walked, here⟩ := walk_parts normal found
  obtain ⟨left, longer⟩ := walk_append [name] walked
  have start : (p.child name).toText ≠ [] ∧ (p.child name).toText.head? ≠ some Path.slash := by
    have back := Path.ofText_toText inner
    constructor
    · intro empty
      rw [empty] at back
      have parts : p.parts ++ [name] = [] := congrArg Path.parts back.symm
      simp at parts
    · intro slash
      have absolute : (p.child name).absolute = true := by rw [← back]; simp [Path.ofText, slash]
      exact absurd (relative.symm.trans absolute) (by decide)
  refine find_eq_ok_iff.mpr ⟨?_, start.1, start.2, fits, (name, node) :: trail, ?_, rfl⟩
  · rw [Path.toText_child relative normal isName]
    split
    · exact isName.no_nul
    · simp [noNul, isName.no_nul, Path.slash]
  · rw [Path.splitAt_toText_child relative normal isName, longer,
      walk_name here search isName entry plain]

end FileTree

end Bytewise

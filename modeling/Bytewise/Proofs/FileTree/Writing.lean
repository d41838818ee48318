import Bytewise.FileTree.TextFile
import Bytewise.FileTree.Update
import Bytewise.Proofs.FileTree.Places
import Bytewise.Proofs.Text.Breaks
import Bytewise.Proofs.Text.Encoding
import Mathlib

/-!
# A file that was written is found

Writing a file changes one place of the tree, and the name that it was written under leads to that
place through directories and links which the change leaves passable. So the tree afterwards
resembles the tree before (`Node.Resembles`): whatever could be passed can be passed in the same
way. Following the name in both trees at once then shows that it ends at the new content, whether
the file was there before or was made (`FileTree.Keeps.writeFile`).
-/

namespace Bytewise

/-- A node that stands where another stood and can be passed in the same way: the same link, a file
with the same permissions, or a directory with the same permissions that still has every name. -/
inductive Node.Resembles : Node → Node → Prop where
  | file (access : Access) (data data' : Bytes) : Resembles (.file access data) (.file access data')
  | link (target : Text) : Resembles (.link target) (.link target)
  | directory (access : Access) {entries entries' : List (Text × Node)} (now : Text → Node)
      (kept : ∀ name node, FileTree.lookup name entries = some node →
        FileTree.lookup name entries' = some (now name))
      (alike : ∀ name node, FileTree.lookup name entries = some node → Resembles node (now name)) :
      Resembles (.directory access entries) (.directory access entries')

namespace FileTree

variable {entries : List (Text × Node)} {name other : Text} {node : Node}

@[simp] theorem lookup_setEntry_self : lookup name (setEntry name node entries) = some node := by
  induction entries with
  | nil => simp [setEntry, lookup]
  | cons e rest ih =>
      obtain ⟨first, old⟩ := e
      by_cases same : first = name
      · simp [setEntry, lookup, same]
      · simp [setEntry, lookup, same, ih]

theorem lookup_setEntry_of_ne (differs : other ≠ name) :
    lookup other (setEntry name node entries) = lookup other entries := by
  induction entries with
  | nil => simp [setEntry, lookup, differs.symm]
  | cons e rest ih =>
      obtain ⟨first, old⟩ := e
      by_cases same : first = name
      · subst same
        simp [setEntry, lookup, differs.symm]
      · simp [setEntry, lookup, same, ih]

/-- Putting a node below an entry that is a directory changes that directory only. -/
theorem put_cons {access : Access} {inside : List (Text × Node)} {rest : List Text}
    (found : lookup name entries = some (.directory access inside)) (inner : rest ≠ []) :
    put (name :: rest) node entries =
      setEntry name (.directory access (put rest node inside)) entries := by
  obtain ⟨next, rest, rfl⟩ := List.exists_cons_of_ne_nil inner
  simp only [put, update, found]

end FileTree

namespace Node

variable {node node' : Node} {access : Access} {entries : List (Text × Node)} {name own : Text}
  {names : List Text}

namespace Resembles

@[refl] theorem refl (node : Node) : node.Resembles node := by
  induction node using Node.insideInduction with
  | file access data => exact .file access data data
  | link target => exact .link target
  | directory access entries ih =>
      refine .directory access (fun name => (FileTree.lookup name entries).getD default) ?_ ?_
      · intro name node found
        rw [found, Option.getD_some]
      · intro name node found
        rw [found, Option.getD_some]
        exact ih _ (FileTree.mem_of_lookup found)

/-- A new entry, or one that resembles the old one. -/
theorem setEntry (alike : ∀ old, FileTree.lookup name entries = some old → old.Resembles node) :
    (Node.directory access entries).Resembles
      (.directory access (FileTree.setEntry name node entries)) := by
  refine .directory access
    (fun other => (FileTree.lookup other (FileTree.setEntry name node entries)).getD default) ?_ ?_
  all_goals
    intro other old found
    by_cases same : other = name
    · subst same
      simp [alike old found]
    · simp [FileTree.lookup_setEntry_of_ne same, found, refl]

theorem isDirectory (alike : node.Resembles node') (here : node.isDirectory = true) :
    node'.isDirectory = true := by
  cases alike with
  | directory => rfl
  | _ => cases here

theorem searchable (alike : node.Resembles node') (here : FileTree.Searchable node) :
    FileTree.Searchable node' := by
  obtain ⟨access, entries, rfl, search⟩ := here
  cases alike with
  | directory => exact ⟨access, _, rfl, search⟩

/-- A name that a directory has is still there. -/
theorem asked {found : Node} (alike : node.Resembles node')
    (asked : FileTree.Asked node name (some found)) :
    ∃ found', found.Resembles found' ∧ FileTree.Asked node' name (some found') := by
  obtain ⟨⟨access, entries, rfl, search, entry⟩, nonempty, dot, dots, short⟩ := asked
  cases alike with
  | directory _ now kept alike =>
      exact ⟨now name, alike name found entry,
        ⟨⟨access, _, rfl, search, kept name found entry⟩, nonempty, dot, dots, short⟩⟩

end Resembles

/-- One name more than a place where a directory stands. -/
theorem at?_concat {inside : List (Text × Node)}
    (here : node.at? names = some (.directory access inside)) :
    node.at? (names ++ [own]) = FileTree.lookup own inside := by
  induction names generalizing node with
  | nil =>
      rw [at?_nil] at here
      cases here
      cases found : FileTree.lookup own inside <;> simp [at?, found]
  | cons name rest ih =>
      obtain ⟨access, entries, inner, rfl, found, below⟩ := at?_cons_eq_some_iff.mp here
      simp [at?, found, ih below]

/-- A node that resembles what stood at its place, or is new there, can be put there. -/
theorem put_resembles {inner : Access} {inside : List (Text × Node)}
    (here : (directory access entries).at? names = some (.directory inner inside))
    (alike : ∀ old, FileTree.lookup own inside = some old → old.Resembles node) :
    (directory access entries).Resembles
        (.directory access (FileTree.put (names ++ [own]) node entries)) ∧
      (directory access (FileTree.put (names ++ [own]) node entries)).at? (names ++ [own]) =
        some node := by
  induction names generalizing access entries with
  | nil =>
      rw [at?_nil] at here
      cases here
      refine ⟨Resembles.setEntry alike, ?_⟩
      simp [FileTree.put, FileTree.update, at?]
  | cons name rest ih =>
      obtain ⟨_, _, next, same, found, below⟩ := at?_cons_eq_some_iff.mp here
      cases same
      -- What the place leads through is a directory, since something stands below it.
      obtain ⟨access', entries', rfl⟩ : ∃ access' entries', next = .directory access' entries' := by
        cases rest with
        | nil =>
            rw [at?_nil] at below
            exact ⟨_, _, Option.some.inj below⟩
        | cons =>
            obtain ⟨access', entries', _, same, _⟩ := at?_cons_eq_some_iff.mp below
            exact ⟨access', entries', same⟩
      obtain ⟨resembles, stands⟩ := ih below
      rw [List.cons_append, FileTree.put_cons found (by simp)]
      refine ⟨Resembles.setEntry ?_, ?_⟩
      · intro old entry
        cases found.symm.trans entry
        exact resembles
      · simp [at?, stands]

end Node

namespace FileTree

variable {t t' : FileTree} {links : Nat} {trail trail' now : List (Text × Node)} {todo : List Text}
  {node : Node} {access : Access} {old data : Bytes} {place : List Text} {p : Path}

theorem Asked.searchable {part : Text} {answer : Option Node} (asked : Asked node part answer) :
    Searchable node := by
  obtain ⟨access, entries, here, search, _⟩ := asked.directory
  exact ⟨access, entries, here, search⟩

/-! ## Trails -/

/-- A trail leads through entries of directories of the tree. -/
inductive Passes (t : FileTree) : List (Text × Node) → Prop where
  | start : Passes t []
  | entry {trail : List (Text × Node)} {name : Text} {node : Node} {access : Access}
      {entries : List (Text × Node)} (outer : Passes t trail)
      (here : reached t trail = .directory access entries)
      (found : lookup name entries = some node) : Passes t ((name, node) :: trail)

theorem Passes.at? (passes : Passes t trail) :
    (Node.directory {} t).at? (trail.reverse.map Prod.fst) = some (reached t trail) := by
  induction passes with
  | start => exact Node.at?_nil _
  | entry outer here found ih =>
      rw [here] at ih
      rw [List.reverse_cons, List.map_append]
      exact (Node.at?_concat ih).trans found

theorem Passes.asked {part : Text} (passes : Passes t trail)
    (asked : Asked (reached t trail) part (some node)) : Passes t ((part, node) :: trail) := by
  obtain ⟨access, entries, here, _, found⟩ := asked.directory
  exact .entry passes here found

/-- A file is made under the last part of a name only. -/
theorem making_eq_ok {part : Text} (made : making t trail part todo = .ok trail') :
    todo = [] ∧ trail' = (part, .file {} []) :: trail := by
  rw [making] at made
  split at made
  next last =>
    split at made <;> cases made
    exact ⟨List.isEmpty_iff.mp last, rfl⟩
  next => split at made <;> cases made

/-- Following a name to write ends at a node of the tree, or at a new file in a directory of it. -/
theorem passes_of_leads (passes : Passes t trail)
    (leads : Leads t (making t) links trail todo trail') :
    Passes t trail' ∨ ∃ outer part, trail' = (part, .file {} []) :: outer ∧ Passes t outer ∧
      Asked (reached t outer) part none := by
  induction leads with
  | arrived links trail => exact .inl passes
  | empty here next ih => exact ih passes
  | dot here next ih => exact ih passes
  | dots here next ih =>
      cases passes with
      | entry outer _ _ => exact ih outer
  | link asked relative next ih => exact ih passes
  | name asked plain next ih => exact ih (passes.asked asked)
  | missing asked made =>
      obtain ⟨rfl, rfl⟩ := making_eq_ok made
      exact .inr ⟨_, _, rfl, passes, asked⟩

/-- Two trails pass the same names, the second one through entries of a tree that resemble those of
the first. -/
inductive Parallel (t' : FileTree) : List (Text × Node) → List (Text × Node) → Prop where
  | start : Parallel t' [] []
  | entry {trail now : List (Text × Node)} {name : Text} {node node' : Node} {access : Access}
      {entries : List (Text × Node)} (outer : Parallel t' trail now)
      (alike : node.Resembles node') (here : reached t' now = .directory access entries)
      (found : lookup name entries = some node') :
      Parallel t' ((name, node) :: trail) ((name, node') :: now)

namespace Parallel

theorem passes (parallel : Parallel t' trail now) : Passes t' now := by
  induction parallel with
  | start => exact .start
  | entry _ _ here found ih => exact .entry ih here found

theorem names_eq (parallel : Parallel t' trail now) : trail.map Prod.fst = now.map Prod.fst := by
  induction parallel with
  | start => rfl
  | entry _ _ _ _ ih => rw [List.map_cons, List.map_cons, ih]

theorem reached_resembles (parallel : Parallel t' trail now)
    (root : (Node.directory {} t).Resembles (.directory {} t')) :
    (reached t trail).Resembles (reached t' now) := by
  cases parallel with
  | start => exact root
  | entry _ alike _ _ => exact alike

theorem asked {part : Text} {node' : Node} (parallel : Parallel t' trail now)
    (alike : node.Resembles node') (asked : Asked (reached t' now) part (some node')) :
    Parallel t' ((part, node) :: trail) ((part, node') :: now) := by
  obtain ⟨access, entries, here, _, found⟩ := asked.directory
  exact .entry parallel alike here found

end Parallel

/-- A name that was followed to write can be followed to read in a tree that resembles the first and
has a file at the end. -/
theorem walk_of_leads (root : (Node.directory {} t).Resembles (.directory {} t'))
    (leads : Leads t (making t) links trail todo trail') (parallel : Parallel t' trail now)
    (stands : (Node.directory {} t').at? (trail'.reverse.map Prod.fst) =
      some (.file access data)) :
    ∃ now', walk t' links now todo = .ok now' ∧ reached t' now' = .file access data := by
  induction leads generalizing now with
  | arrived links trail =>
      refine ⟨now, follow_nil, ?_⟩
      have found := parallel.passes.at?
      rw [List.map_reverse, ← parallel.names_eq, ← List.map_reverse, stands] at found
      exact (Option.some.inj found).symm
  | empty here next ih =>
      have here' := (parallel.reached_resembles root).isDirectory here
      rw [walk, follow_empty here']
      exact ih parallel stands
  | dot here next ih =>
      have here' := (parallel.reached_resembles root).searchable here
      rw [walk, follow_dot here']
      exact ih parallel stands
  | dots here next ih =>
      have here' := (parallel.reached_resembles root).searchable here
      cases parallel with
      | entry outer _ _ _ =>
          rw [walk, follow_dots here']
          exact ih outer stands
  | link asked relative next ih =>
      obtain ⟨_, alike, asked'⟩ := (parallel.reached_resembles root).asked asked
      cases alike
      rw [walk, follow_link asked' relative]
      exact ih parallel stands
  | name asked plain next ih =>
      obtain ⟨node', alike, asked'⟩ := (parallel.reached_resembles root).asked asked
      have plain' : ∀ target, node' ≠ .link target := by
        rintro target rfl
        cases alike
        exact plain target rfl
      rw [walk, follow_name asked' plain']
      exact ih (parallel.asked alike asked') stands
  | @missing links trail trail' part rest asked made =>
      obtain ⟨rfl, rfl⟩ := making_eq_ok made
      -- The directory that did not have the file has it now.
      have asked' : Asked (reached t' now) part (some (.file access data)) := by
        obtain ⟨inner, _, here', search⟩ :=
          (parallel.reached_resembles root).searchable asked.searchable
        refine ⟨⟨inner, _, here', search, ?_⟩, asked.ne_nil, asked.ne_dot, asked.ne_dots,
          asked.short⟩
        have outer := parallel.passes.at?
        rw [here'] at outer
        rw [List.reverse_cons, List.map_append, List.map_reverse, parallel.names_eq,
          ← List.map_reverse] at stands
        exact (Node.at?_concat outer).symm.trans stands
      refine ⟨(part, .file access data) :: now, ?_, rfl⟩
      rw [walk, follow_name asked' (by simp), follow_nil]

/-! ## Files that can be kept -/

/-- A file can be kept under a path: the directories above it are there or can be made, and then the
path leads to a file, there already or new, that may be written and read. -/
def Keeps (t : FileTree) (p : Path) : Prop :=
  ∃ t₁ place access old, makeDirectories p.absolute [] p.parent.parts t = .ok t₁ ∧
    t₁.locateWith (making t₁) p.toText = .ok ⟨place, .file access old⟩ ∧
      access.write = true ∧ access.read = true

/-- The file that a path leads to has the new content after it was replaced. -/
theorem find_replaceFile (data : Bytes)
    (located : t.locateWith (making t) p.toText = .ok ⟨place, .file access old⟩)
    (write : access.write = true) :
    ∃ t', replaceFile p data t = .ok t' ∧ t'.find p.toText = .ok (.file access data) := by
  refine ⟨put place (.file access data) t, by simp [replaceFile, located, write], ?_⟩
  obtain ⟨noNul, inhabited, relative, fits, trail, walked, same⟩ := locateWith_eq_ok_iff.mp located
  cases trail with
  | nil => cases same
  | cons last outer =>
      obtain ⟨own, node⟩ := last
      obtain ⟨rfl, rfl⟩ : place = ((own, node) :: outer).reverse.map Prod.fst ∧
          node = .file access old := by
        injection same with places nodes
        exact ⟨places, nodes.symm⟩
      have leads := leads_of_follow walked
      obtain ⟨inner, inside, here, passes, alike⟩ : ∃ inner inside,
          reached t outer = .directory inner inside ∧ Passes t outer ∧
            ∀ before, lookup own inside = some before → before.Resembles (.file access data) := by
        obtain there | ⟨_, _, new, passes, asked⟩ := passes_of_leads .start leads
        · cases there with
          | entry passes here found =>
              refine ⟨_, _, here, passes, fun before entry => ?_⟩
              cases found.symm.trans entry
              exact .file access old data
        · cases new
          obtain ⟨inner, inside, here, _, found⟩ := asked.directory
          refine ⟨inner, inside, here, passes, fun before entry => ?_⟩
          cases found.symm.trans entry
      have stands := passes.at?
      rw [here] at stands
      obtain ⟨root, written⟩ := Node.put_resembles stands alike
      have names : ((own, Node.file access old) :: outer).reverse.map Prod.fst =
          outer.reverse.map Prod.fst ++ [own] := by
        rw [List.reverse_cons, List.map_append]
        rfl
      rw [names]
      obtain ⟨now, walked', there⟩ := walk_of_leads root leads .start (by rw [names, written])
      exact find_eq_ok_iff.mpr ⟨noNul, inhabited, relative, fits, now, walked', there⟩

theorem isPresent_of_find {name : Text} (found : t.find name = .ok node) :
    t.isPresent name = .ok true := by
  rw [find] at found
  cases located : t.locate name with
  | error fault => simp [located, Functor.map, Except.map] at found
  | ok place => simp [isPresent, located]

/-- What is written under a path that can keep a file is read from there. -/
theorem Keeps.writeFile (keeps : t.Keeps p) (data : Bytes) :
    ∃ t', t.writeFile p data = .ok t' ∧ t'.isPresent p.toText = .ok true ∧
      t'.openRaw p.toText = .ok data := by
  obtain ⟨t₁, place, access, old, made, located, write, read⟩ := keeps
  obtain ⟨t', replaced, found⟩ := find_replaceFile data located write
  refine ⟨t', by simp [FileTree.writeFile, made, replaced, bind, Except.bind], ?_, ?_⟩
  · exact isPresent_of_find found
  · simp [openRaw, found, Node.content, read, Except.mapError]

/-- The characters of a file that holds a text without carriage returns. -/
theorem readText_of_openRaw {name : Text} {cs : List Char}
    (opened : t.openRaw name = .ok (Text.ofChars cs).encode) (noReturn : '\r' ∉ cs) :
    t.readText name = .ok cs := by
  have noReturn : .char '\r' ∉ Text.ofChars cs := by simpa [Text.ofChars] using noReturn
  have symbols : t.readSymbols name = .ok (Text.ofChars cs) := by
    rw [readSymbols, opened]
    simp only [Functor.map, Except.map, Utf8.decode_encode (Text.printable_ofChars cs),
      universalNewlines_of_not_mem noReturn]
  simp [readText, symbols, bind, Except.bind, pure, Except.pure, Text.chars?_ofChars]

end FileTree

end Bytewise

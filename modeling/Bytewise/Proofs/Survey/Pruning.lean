import Bytewise.Proofs.Ignore.Directories
import Bytewise.Proofs.Survey.Exclusion
import Bytewise.Proofs.Survey.Reach

/-!
# Directories that a walk prunes

A walk meets a directory if it enters every directory above it (`Surveyor.Meets`), and prunes it if
it passes the directory over there. Whether it does is decided by two paths of the directory, and it
is pruned if either of them is ignored.

That the last line of the patterns decides that applies to the directory as a directory, with a
slash behind its name, therefore fails in one direction: a directory that this line takes back can
still be pruned, if it is ignored as a path without the slash. `pruned_iff_last_line` says exactly
when: a line excludes the directory as a path, and the negation stands behind it and applies to
directories alone, as one that ends in a slash does.
-/

namespace Bytewise

/-- A directory has one entry of a name. -/
theorem Node.WellFormed.node_eq {access : Access} {entries : List (Text × Node)} {name : Text}
    {node node' : Node} (wellFormed : (Node.directory access entries).WellFormed)
    (member : (name, node) ∈ entries) (member' : (name, node') ∈ entries) : node = node' :=
  Option.some.inj ((wellFormed.lookup_eq_some_iff.mpr member).symm.trans
    (wellFormed.lookup_eq_some_iff.mpr member'))

namespace Surveyor

open Pattern

variable {s : Surveyor} {t : FileTree} {path : Path} {relative above : List Text} {root node : Node}
  {name : Text} {values : List Value} {access : Access} {entries : List (Text × Node)}
  {package : PatternPackage} {applies : Text → Text → Prop}

/-! ## Entries that are met -/

/-- A walk below a node meets an entry, which is given by the names of the directories above it and
its own: each of these directories is entered and can be listed, and the system says what the entry
is. -/
inductive Meets (s : Surveyor) :
    Path → List Text → Node → List Text → Text → Node → Prop where
  | here {path : Path} {relative : List Text} {access : Access} {entries : List (Text × Node)}
      {name : Text} {node : Node} (listed : access.read = true) (member : (name, node) ∈ entries)
      (asked : refusal? path access name = none) :
      Meets s path relative (.directory access entries) [] name node
  | inside {path : Path} {relative : List Text} {access : Access} {entries : List (Text × Node)}
      {outer name : Text} {node found : Node} {above : List Text} (listed : access.read = true)
      (member : (outer, node) ∈ entries)
      (enters : s.treatment path relative access outer node = .entered)
      (meets : Meets s (path.child outer) (relative ++ [outer]) node above name found) :
      Meets s path relative (.directory access entries) (outer :: above) name found

theorem Meets.isName (meets : s.Meets path relative root above name node)
    (wellFormed : root.WellFormed) : IsName name := by
  induction meets with
  | here _ member _ => exact wellFormed.isName member
  | inside _ member _ _ ih => exact ih (wellFormed.inside member)

/-- A walk that has an end inside a directory enters the directory, and has the end there. -/
theorem ends_cons_cons_iff (wellFormed : (Node.directory access entries).WellFormed)
    (listed : access.read = true) (member : (name, node) ∈ entries) {next : Text}
    {rest : List Text} {ending : Ending} :
    s.Ends path relative (.directory access entries) (name :: next :: rest) ending ↔
      s.treatment path relative access name node = .entered ∧
        s.Ends (path.child name) (relative ++ [name]) node (next :: rest) ending := by
  constructor
  · intro ends
    cases ends with
    | inside _ member' enters ends =>
        obtain rfl := wellFormed.node_eq member member'
        exact ⟨enters, ends⟩
  · rintro ⟨enters, ends⟩
    exact .inside listed member enters ends

/-- An entry is the end of a walk with the treatment that it gets. -/
theorem ends_singleton_iff (wellFormed : (Node.directory access entries).WellFormed)
    (listed : access.read = true) (member : (name, node) ∈ entries) :
    s.Ends path relative (.directory access entries) [name] (.met .passedOver) ↔
      s.treatment path relative access name node = .passedOver := by
  constructor
  · intro ends
    generalize survey : Ending.met .passedOver = ending at ends
    cases ends with
    | met _ member' _ =>
        obtain rfl := wellFormed.node_eq member member'
        exact (Ending.met.inj survey).symm
    | inside _ _ _ ends =>
        -- There is no end at the directory itself but that it cannot be listed.
        cases ends
        cases survey
  · intro passed
    exact .met_of_eq listed member passed (by simp)

/-- A directory that is met is pruned if the walk passes it over. -/
theorem Meets.ends_passedOver_iff (meets : s.Meets path relative root above name node)
    (wellFormed : root.WellFormed) (directory : node.isDirectory = true) :
    s.Ends path relative root (above ++ [name]) (.met .passedOver) ↔
      s.passesOver (relative ++ above) name true = true := by
  induction meets with
  | here listed member asked =>
      rw [List.nil_append, List.append_nil, ends_singleton_iff wellFormed listed member,
        treatment.eq_def, asked, directory]
      obtain ⟨access', entries', rfl⟩ := Node.isDirectory_iff.mp directory
      split <;> simp_all
  | @inside _ relative _ _ outer name _ _ above listed member enters meets ih =>
      obtain ⟨next, rest, place⟩ := List.exists_cons_of_ne_nil (List.concat_ne_nil name above)
      rw [List.cons_append]
      rw [place, ends_cons_cons_iff wellFormed listed member, ← place,
        ih (wellFormed.inside member) directory, List.append_assoc, List.singleton_append]
      exact and_iff_right enters

/-! ## Directories and the patterns -/

/-- The path of an entry as the patterns see it, from the directory where the walk began. -/
def relativePath (above : List Text) (name : Text) : Text :=
  Text.join [Path.slash] (above ++ [name])

/-- The path of an entry ends in its name. -/
theorem exists_relativePath (above : List Text) (name : Text) :
    relativePath above name = name ∨
      ∃ outer, relativePath above name = outer ++ Path.slash :: name := by
  by_cases top : above = []
  · exact .inl (by rw [top]; rfl)
  · exact .inr ⟨Text.join [Path.slash] above, by
      rw [relativePath, Text.join_concat top, List.append_assoc, List.singleton_append]⟩

theorem relativePath_ne (isName : IsName name) (above : List Text) :
    relativePath above name ≠ [] ∧ relativePath above name ≠ [.char '.'] := by
  obtain same | ⟨outer, same⟩ := exists_relativePath above name
  · rw [same]
    exact ⟨isName.ne_nil, isName.ne_dot⟩
  · rw [same]
    refine ⟨by simp, fun dot => ?_⟩
    have slash : Path.slash ∈ [Symbol.char '.'] := dot ▸ List.mem_append_right _ List.mem_cons_self
    exact absurd slash (by decide)

theorem noFeedLast_relativePath (isName : IsName name) (noFeed : NoFeedLast name)
    (above : List Text) : NoFeedLast (relativePath above name) := by
  obtain same | ⟨outer, same⟩ := exists_relativePath above name
  · rwa [same]
  · rw [same, NoFeedLast, List.getLast?_append, List.getLast?_cons_of_ne_nil isName.ne_nil,
      List.getLast?_eq_some_getLast isName.ne_nil, Option.some_or]
    rwa [NoFeedLast, List.getLast?_eq_some_getLast isName.ne_nil] at noFeed

inductive GivenPatterns (package : PatternPackage) (values : List Value) : Surveyor → Prop where
  | make {s : Surveyor} {registry : Registry} {skipHidden sniff mapping : Value}
      (accepted : Surveyor.make package registry (.list values) skipHidden sniff mapping = .ok s) :
      GivenPatterns package values s
  | withPatterns {s s' : Surveyor} (accepted : s.withPatterns package (.list values) = .ok s') :
      GivenPatterns package values s'

theorem GivenPatterns.ignores_iff (given : GivenPatterns package values s)
    (decides : package.DecidesBy applies) (path : Text) :
    s.ignores path = true ↔ ∃ line, LastLine applies values path line ∧ ¬ IsNegation line := by
  cases given with
  | make accepted =>
      obtain ⟨ignores, read, rfl⟩ := exists_ignores_of_make accepted
      exact ignoredBy_iff decides read path
  | withPatterns accepted =>
      rw [Surveyor.withPatterns] at accepted
      cases read : ignoredBy package (.list values) with
      | error fault =>
          rw [read] at accepted
          cases accepted
      | ok ignores =>
          rw [read] at accepted
          cases accepted
          exact ignoredBy_iff decides read path

/-- A directory that is not hidden is passed over if the patterns ignore one of its paths. -/
theorem passesOver_iff (decides : package.DecidesBy applies)
    (given : GivenPatterns package values s)
    (shown : s.skipHidden = true → name.head? ≠ some (.char '.')) :
    s.passesOver above name true = true ↔
      (∃ line, LastLine applies values (relativePath above name) line ∧ ¬ IsNegation line) ∨
        ∃ line, LastLine applies values (relativePath above name ++ [Path.slash]) line ∧
          ¬ IsNegation line := by
  have visible : (s.skipHidden && name.head? = some (.char '.')) = false := by
    cases hides : s.skipHidden with
    | false => rfl
    | true => simpa using shown hides
  rw [← given.ignores_iff decides, ← given.ignores_iff decides, passesOver, visible]
  simp [relativePath]

/-- A directory that a scan meets and that is not hidden is pruned exactly if the last line of the
patterns that applies to it as a directory is no negation, except where it is taken back in vain:
where it is excluded as a path by a line, and a negation behind this line, which applies to it as a
directory only, is the last one that does. (A directory whose name ends in a line feed may also be
excluded as a path only.) -/
theorem pruned_iff_last_line (decides : package.DecidesBy applies) (wellFormed : t.WellFormed)
    (found : t.find path.toText = .ok root) (given : GivenPatterns package values s)
    (met : s.Meets path [] root above name node) (directory : node.isDirectory = true)
    (shown : s.skipHidden = true → name.head? ≠ some (.char '.')) :
    ((s.Ends path [] root (above ++ [name]) (.met .passedOver) ↔
        ∃ line, LastLine applies values (relativePath above name ++ [Path.slash]) line ∧
          ¬ IsNegation line) ↔
      ¬ TakenBackInVain applies values (relativePath above name)) ∧
      (KeptBySlash applies → NoFeedLast name →
        (TakenBackInVain applies values (relativePath above name) ↔
          NegatedBehind applies values (relativePath above name))) := by
  have wellFormedRoot := FileTree.wellFormed_of_find wellFormed found
  have isName := met.isName wellFormedRoot
  constructor
  · rw [met.ends_passedOver_iff wellFormedRoot directory, List.nil_append,
      passesOver_iff decides given shown, TakenBackInVain]
    have negations : (∀ line, LastLine applies values (relativePath above name ++ [Path.slash])
        line → IsNegation line) ↔
        ¬ ∃ line, LastLine applies values (relativePath above name ++ [Path.slash]) line ∧
          ¬ IsNegation line := by
      simp only [not_exists, not_and, not_not]
    rw [negations, not_and_not_right]
    exact ⟨fun same excluded => same.mp (.inl excluded),
      fun also => ⟨fun either => either.elim also id, .inr⟩⟩
  · intro kept noFeed
    obtain ⟨nonempty, named⟩ := relativePath_ne isName above
    exact takenBackInVain_iff kept nonempty named (noFeedLast_relativePath isName noFeed above)

/-! ## Directories that are taken back -/

def built : Node := .directory {} [("a.c", .file {} [])]

/-- That directory inside another one. -/
def oneBuild : FileTree := [("src", .directory {} [("build", built)])]

def leavingOut (patterns : List Value) : Except Fault Surveyor :=
  make .standard .standard (.list patterns) (.bool true) (.int 4096) (.bool true)

theorem wellFormed_oneBuild : oneBuild.WellFormed := by
  have wellFormed : built.WellFormed := by
    refine .directory _ _ (by decide) (by decide) ?_
    simp [Node.WellFormed.file]
  have wellFormed' : (Node.directory {} [("build", built)]).WellFormed := by
    refine .directory _ _ (by decide) (by decide) ?_
    simpa using wellFormed
  refine .directory _ _ (by decide) (by decide) ?_
  simpa [oneBuild] using wellFormed'

theorem find_oneBuild : oneBuild.find (Path.ofText ".").toText = .ok (.directory {} oneBuild) := by
  cbv

theorem meets_build (enters : s.passesOver [] "src" true = false) :
    s.Meets (Path.ofText ".") [] (.directory {} oneBuild) ["src"] "build" built :=
  .inside rfl (List.mem_singleton_self _)
    (treatment_eq_entered_iff.mpr ⟨by decide, enters, _, _, rfl⟩)
    (.here rfl (List.mem_singleton_self _) (by decide))

/-- A surveyor whose patterns leave the outer directory alone meets the inner one. -/
theorem exists_leavingOut (patterns : List Value)
    (enters : (leavingOut patterns).map (·.passesOver [] "src" true) = .ok false) :
    ∃ s, leavingOut patterns = .ok s ∧ GivenPatterns .standard patterns s ∧
      s.Meets (Path.ofText ".") [] (.directory {} oneBuild) ["src"] "build" built := by
  cases accepted : leavingOut patterns with
  | error fault =>
      rw [accepted] at enters
      cases enters
  | ok s =>
      rw [accepted] at enters
      exact ⟨s, rfl, .make accepted, meets_build (Except.ok.inj enters)⟩

theorem pruned_iff_last_line_taken_back :
    ∃ s, leavingOut [.text "build/", .text "!src/build/"] = .ok s ∧ oneBuild.WellFormed ∧
      oneBuild.find (Path.ofText ".").toText = .ok (.directory {} oneBuild) ∧
      s.Meets (Path.ofText ".") [] (.directory {} oneBuild) ["src"] "build" built ∧
      ¬ s.Ends (Path.ofText ".") [] (.directory {} oneBuild) ["src", "build"]
        (.met .passedOver) := by
  obtain ⟨s, accepted, given, met⟩ :=
    exists_leavingOut [.text "build/", .text "!src/build/"] (by decide +kernel)
  refine ⟨s, accepted, wellFormed_oneBuild, find_oneBuild, met, fun pruned => ?_⟩
  have last : LastLine LineApplies [.text "build/", .text "!src/build/"] "src/build/"
      "!src/build/" :=
    ⟨[.text "build/"], [], rfl, by decide +kernel, nofun⟩
  obtain ⟨decided, vain_iff⟩ := pruned_iff_last_line PatternPackage.standard_decidesBy
    wellFormed_oneBuild find_oneBuild given met rfl (fun _ => by decide)
  have noFeed : NoFeedLast "build" := by
    unfold NoFeedLast
    decide
  have notVain : ¬ TakenBackInVain LineApplies [.text "build/", .text "!src/build/"]
      (relativePath ["src"] "build") := by
    rw [vain_iff keptBySlash_lineApplies noFeed]
    rintro ⟨before, line, between, negation, after, parts, -, applies, -⟩
    have member : Value.text line ∈ [.text "build/", .text "!src/build/"] := by
      rw [parts]
      simp
    obtain first | second := List.mem_pair.mp member
    · cases first
      exact absurd applies (by decide +kernel)
    · cases second
      exact absurd applies (by decide +kernel)
  obtain ⟨line, last', plain⟩ := (decided.mpr notVain).mp pruned
  obtain rfl := last.unique last'
  exact plain rfl

/-- The last line that applies to the directory takes it back, and the walk prunes it. -/
theorem pruned_although_taken_back :
    ∃ s, leavingOut [.text "build", .text "!build/"] = .ok s ∧
      s.Meets (Path.ofText ".") [] (.directory {} oneBuild) ["src"] "build" built ∧
      s.Ends (Path.ofText ".") [] (.directory {} oneBuild) ["src", "build"] (.met .passedOver) ∧
      LastLine LineApplies [.text "build", .text "!build/"]
        (relativePath ["src"] "build" ++ [Path.slash]) "!build/" ∧
      IsNegation "!build/" := by
  obtain ⟨s, accepted, given, met⟩ :=
    exists_leavingOut [.text "build", .text "!build/"] (by decide +kernel)
  have excluded : LastLine LineApplies [.text "build", .text "!build/"]
      (relativePath ["src"] "build") "build" := by
    refine ⟨[], [.text "!build/"], rfl, by decide +kernel, fun later member => ?_⟩
    cases List.mem_singleton.mp member
    decide +kernel
  have plain : ¬ IsNegation "build" := by
    unfold IsNegation
    decide
  have pruned : s.passesOver ["src"] "build" true = true :=
    (passesOver_iff PatternPackage.standard_decidesBy given (fun _ => by decide)).mpr
      (.inl ⟨"build", excluded, plain⟩)
  have wellFormed := FileTree.wellFormed_of_find wellFormed_oneBuild find_oneBuild
  exact ⟨s, accepted, met, (met.ends_passedOver_iff wellFormed rfl).mpr pruned,
    ⟨[.text "build"], [], rfl, by decide +kernel, nofun⟩, rfl⟩

end Surveyor

end Bytewise

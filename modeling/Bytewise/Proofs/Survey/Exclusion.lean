import Bytewise.Proofs.Ignore.Directories
import Bytewise.Proofs.Survey.Totals

/-!
# Adding exclusions

A surveyor that ignores more passes over more entries, and an entry that it does not pass over it
treats as before. So its survey is that of the other with parts left out: `Survey.Within` is kept by
joining surveys, hence by directories, by induction along the tree, and by requests.

Leaving parts out cannot hide a fault that the larger survey does not have. The reverse is possible:
a survey that is stopped may get to its end once the file that stopped it is excluded. Therefore the
relation asks only about larger surveys that were not stopped.
-/

namespace Bytewise

namespace Survey

variable {s s' u u' : Survey}

/-- A survey is another one with parts left out, provided that the other was not stopped. -/
def Within (u s : Survey) : Prop :=
  s.stopped = none →
    u.stopped = none ∧ u.counted.Sublist s.counted ∧ u.failures.Sublist s.failures

theorem Within.refl (s : Survey) : s.Within s :=
  fun going => ⟨going, List.Sublist.refl _, List.Sublist.refl _⟩

/-- What only leaves a note stands for anything left out. -/
theorem note_within (message : Text) (s : Survey) : (note message).Within s :=
  fun _ => ⟨rfl, List.nil_sublist _, List.nil_sublist _⟩

theorem Within.append (first : u.Within s) (second : u'.Within s') :
    (u ++ u').Within (s ++ s') := by
  intro going
  rw [stopped_append, Option.or_eq_none_iff] at going
  obtain ⟨goes, counted, failures⟩ := first going.1
  obtain ⟨goes', counted', failures'⟩ := second going.2
  refine ⟨by rw [stopped_append, goes, goes', Option.none_or], ?_, ?_⟩
  · rw [counted_append_of_going goes, counted_append_of_going going.1]
    exact counted.append counted'
  · rw [failures_append_of_going goes, failures_append_of_going going.1]
    exact failures.append failures'

theorem within_join {α : Type} {xs : List α} {f g : α → Survey}
    (each : ∀ x ∈ xs, (f x).Within (g x)) : (join (xs.map f)).Within (join (xs.map g)) := by
  induction xs with
  | nil => exact Within.refl _
  | cons x xs ih =>
      rw [List.forall_mem_cons] at each
      exact each.1.append (ih each.2)

end Survey

namespace Surveyor

variable {s : Surveyor} {t : FileTree} {ignores : Text → Bool}

/-! ## One surveyor ignores more than another -/

/-- A surveyor that differs only in what it ignores meets entries in the same way. -/
theorem meet_with_ignores (s : Surveyor) (ignores : Text → Bool) (t : FileTree) (path : Path)
    (name : Text) (treatment : Treatment) :
    { s with ignores := ignores }.meet t path name treatment = s.meet t path name treatment := by
  cases treatment <;> rfl

theorem passesOver_with_ignores (more : ∀ path, s.ignores path = true → ignores path = true)
    {relative : List Text} {name : Text} {directory : Bool}
    (passed : s.passesOver relative name directory = true) :
    { s with ignores := ignores }.passesOver relative name directory = true := by
  simp only [passesOver, Bool.or_eq_true, Bool.and_eq_true] at passed ⊢
  obtain (hidden | ignored) | ⟨isDirectory, ignored⟩ := passed
  · exact .inl (.inl hidden)
  · exact .inl (.inr (more _ ignored))
  · exact .inr ⟨isDirectory, more _ ignored⟩

/-- An entry is passed over, or treated as by the surveyor that ignores less. -/
theorem treatment_with_ignores (more : ∀ path, s.ignores path = true → ignores path = true)
    (path : Path) (relative : List Text) (access : Access) (name : Text) (node : Node) :
    { s with ignores := ignores }.treatment path relative access name node = .passedOver ∨
      { s with ignores := ignores }.treatment path relative access name node =
        s.treatment path relative access name node := by
  simp only [treatment]
  cases refusal? path access name with
  | some cause => exact .inr rfl
  | none =>
      cases passed' : { s with ignores := ignores }.passesOver relative name node.isDirectory with
      | true => exact .inl (by simp)
      | false =>
          cases passed : s.passesOver relative name node.isDirectory with
          | true => cases passed'.symm.trans (passesOver_with_ignores more passed)
          | false => exact .inr rfl

theorem walk_within (more : ∀ path, s.ignores path = true → ignores path = true) (path : Path)
    (relative : List Text) (node : Node) :
    ({ s with ignores := ignores }.walk t path relative node).fresh.Within
      (s.walk t path relative node).fresh := by
  induction node using Node.insideInduction generalizing path relative with
  | file access data =>
      rw [walk, walk]
      exact Survey.Within.refl _
  | link target =>
      rw [walk, walk]
      exact Survey.Within.refl _
  | directory access entries ih =>
      cases listed : access.read with
      | false =>
          rw [walk, walk, listed]
          exact Survey.Within.refl _
      | true =>
          rw [fresh_walk_listed listed, fresh_walk_listed listed]
          apply Survey.within_join
          intro e sorted
          have member : e ∈ entries := List.mem_mergeSort.mp sorted
          rw [entryWork, entryWork]
          obtain passed | same :=
            treatment_with_ignores (s := s) more path relative access e.1 e.2
          · rw [passed]
            exact Survey.note_within _ _
          · rw [same]
            cases s.treatment path relative access e.1 e.2 with
            | entered => exact ih e member _ _
            | _ =>
                dsimp only
                rw [meet_with_ignores]
                exact Survey.Within.refl _

theorem visit_within (more : ∀ path, s.ignores path = true → ignores path = true) (given : Text) :
    ({ s with ignores := ignores }.visit t given).fresh.Within (s.visit t given).fresh := by
  rw [visit, visit]
  cases t.find (Path.ofText given).toText with
  | error fault => cases fault <;> exact Survey.Within.refl _
  | ok node =>
      cases node with
      | directory access entries =>
          dsimp only
          rw [scan, scan]
          cases t.find (Path.ofText given).toText with
          | error fault => cases fault <;> exact Survey.Within.refl _
          | ok node =>
              cases node with
              | directory access entries => exact walk_within more _ _ _
              | _ => exact Survey.Within.refl _
      | _ => exact Survey.Within.refl _

theorem run_within (more : ∀ path, s.ignores path = true → ignores path = true)
    (paths : List Text) :
    ({ s with ignores := ignores }.run t paths).fresh.Within (s.run t paths).fresh := by
  rw [fresh_run, fresh_run]
  exact Survey.within_join fun given _ => visit_within more given

end Surveyor

/-! ## Totals of fewer files -/

/-- Totals of one name, none of which is more than the other. -/
structure Totals.AtMost (t u : Totals) : Prop where
  name : t.name = u.name
  files : t.files ≤ u.files
  code : t.code ≤ u.code
  comment : t.comment ≤ u.comment
  blank : t.blank ≤ u.blank
  bytes : t.bytes ≤ u.bytes
  total : t.total ≤ u.total

theorem Totals.ofFiles_atMost (name : Text) {files files' : List FileCounts}
    (fewer : files.Sublist files') : (ofFiles name files).AtMost (ofFiles name files') := by
  have sum (f : FileCounts → Nat) :
      (((files.map f).sum : Nat) : Int) ≤ ((files'.map f).sum : Nat) :=
    Int.ofNat_le.mpr ((fewer.map f).sum_le_sum fun _ _ => Nat.zero_le _)
  refine ⟨rfl, Int.ofNat_le.mpr fewer.length_le, sum _, sum _, sum _, sum _, ?_⟩
  rw [total_ofFiles, total_ofFiles]
  exact sum _

/-- Totals of each language, and of all, are at most those of the survey that files were left out
of. -/
theorem Aggregate.SumsUp.atMost {a a' : Aggregate} {counted counted' : List (FileCounts × Language)}
    (sums : a.SumsUp counted) (sums' : a'.SumsUp counted') (fewer : counted.Sublist counted')
    (named : ∀ x ∈ counted', ∀ y ∈ counted', x.2.id = y.2.id → x.2.name = y.2.name) :
    (∀ id totals, (id, totals) ∈ a → ∃ totals', (id, totals') ∈ a' ∧ totals.AtMost totals') ∧
      a.grandTotal.AtMost a'.grandTotal := by
  refine ⟨?_, ?_⟩
  · intro id totals member
    obtain ⟨x, among, sameId, sum⟩ := sums.totals _ member
    have present : id ∈ a'.map Prod.fst := by
      rw [sums'.ids, List.mem_eraseDups, List.mem_map]
      exact ⟨x, fewer.subset among, sameId⟩
    obtain ⟨⟨_, totals'⟩, member', rfl⟩ := List.mem_map.mp present
    obtain ⟨y, among', sameId', sum'⟩ := sums'.totals _ member'
    have name : x.2.name = y.2.name :=
      named x (fewer.subset among) y among' (sameId.trans sameId'.symm)
    refine ⟨totals', member', ?_⟩
    dsimp only at sum sum'
    rw [sum, sum', name]
    exact Totals.ofFiles_atMost _ ((fewer.filter _).map _)
  · rw [sums.grand, sums'.grand]
    exact Totals.ofFiles_atMost _ (fewer.map _)

namespace Surveyor

variable {package : PatternPackage} {applies : Text → Text → Prop} {registry : Registry}
  {patterns added : List Value} {skipHidden sniff mapping : Value} {s s' : Surveyor}

/-! ## Patterns that are added -/

theorem make_list (package : PatternPackage) (registry : Registry) (patterns : List Value)
    (skipHidden sniff mapping : Value) :
    make package registry (.list patterns) skipHidden sniff mapping =
      (ignoredBy package (.list patterns)).map fun ignores =>
        { registry := if registry.languages.isEmpty then .standard else registry
          ignores := ignores
          skipHidden := skipHidden.truthy
          sniff := ReadSize.ofValue sniff
          mapping := mapping.truthy } := by
  cases patterns with
  | nil => rfl
  | cons first rest =>
      simp only [make, Value.truthy, List.isEmpty_cons, Bool.not_false, ↓reduceIte]
      cases ignoredBy package (.list (first :: rest)) <;> rfl

/-- No patterns ignore nothing, and any others are decided by the package. -/
theorem ignoredBy_iff (decides : package.DecidesBy applies) {ignores : Text → Bool}
    (accepted : ignoredBy package (.list patterns) = .ok ignores) (path : Text) :
    ignores path = true ↔ ∃ line, LastLine applies patterns path line ∧ ¬ IsNegation line := by
  cases patterns with
  | nil =>
      cases accepted
      exact iff_of_false Bool.false_ne_true fun ⟨_, last, _⟩ => not_lastLine_nil last
  | cons first rest => exact decides _ _ accepted path

/-- A surveyor that is set up with patterns ignores what they say, and is otherwise what its other
settings say. -/
theorem exists_ignores_of_make
    (accepted : make package registry (.list patterns) skipHidden sniff mapping = .ok s) :
    ∃ ignores, ignoredBy package (.list patterns) = .ok ignores ∧
      s = { registry := if registry.languages.isEmpty then .standard else registry
            ignores := ignores
            skipHidden := skipHidden.truthy
            sniff := ReadSize.ofValue sniff
            mapping := mapping.truthy } := by
  rw [make_list] at accepted
  cases read : ignoredBy package (.list patterns) with
  | error fault =>
      rw [read] at accepted
      cases accepted
  | ok ignores =>
      rw [read] at accepted
      exact ⟨ignores, rfl, (Except.ok.inj accepted).symm⟩

/-- A surveyor with patterns added, none of them a negation, ignores more and is the same
otherwise. -/
theorem ignores_of_make_added (decides : package.DecidesBy applies)
    (accepted : make package registry (.list patterns) skipHidden sniff mapping = .ok s)
    (accepted' :
      make package registry (.list (patterns ++ added)) skipHidden sniff mapping = .ok s')
    (plain : NegationFree added) :
    ∃ ignores, s' = { s with ignores := ignores } ∧
      ∀ path, s.ignores path = true → ignores path = true := by
  obtain ⟨ignores, first, rfl⟩ := exists_ignores_of_make accepted
  obtain ⟨ignores', more, rfl⟩ := exists_ignores_of_make accepted'
  refine ⟨ignores', rfl, fun path ignored => ?_⟩
  rw [ignoredBy_iff decides more path]
  exact ignored_of_added plain ((ignoredBy_iff decides first path).mp ignored)

/-- Patterns that are added, none of them a negation, only remove files: of a request that comes to
its end, the files with their counts and the failures are those without the patterns, with some left
out. So no total is more than it was. -/
theorem run_with_exclusions {made made' : Classifiers} (t : FileTree) (paths : List Text)
    (decides : package.DecidesBy applies)
    (accepted : make package registry (.list patterns) skipHidden sniff mapping = .ok s)
    (accepted' :
      make package registry (.list (patterns ++ added)) skipHidden sniff mapping = .ok s')
    (plain : NegationFree added) (kept : made.Of s.registry) (kept' : made'.Of s'.registry)
    (going : ((s.run t paths).run made).1.stopped = none) :
    let survey := ((s.run t paths).run made).1
    let survey' := ((s'.run t paths).run made').1
    survey'.stopped = none ∧
      survey'.counted.Sublist survey.counted ∧
      survey'.files.Sublist survey.files ∧
      survey'.failures.Sublist survey.failures ∧
      (∀ id totals', (id, totals') ∈ survey'.aggregate →
        ∃ totals, (id, totals) ∈ survey.aggregate ∧ totals'.AtMost totals) ∧
      survey'.aggregate.grandTotal.AtMost survey.aggregate.grandTotal := by
  intro survey survey'
  obtain ⟨ignores, rfl, more⟩ := ignores_of_make_added decides accepted accepted' plain
  have fresh : survey = (s.run t paths).fresh := (steady_run s t paths made kept).1
  have fresh' : survey' = ({ s with ignores := ignores }.run t paths).fresh :=
    (steady_run _ t paths made' kept').1
  have genuine : ∀ x ∈ survey.counted, s.Genuine t x := by
    intro x member
    rw [fresh] at member
    exact genuine_of_mem_run member
  have within : survey'.Within survey := by
    rw [fresh, fresh']
    exact run_within more paths
  obtain ⟨goes, counted, failures⟩ := within going
  have named : ∀ x ∈ survey.counted, ∀ y ∈ survey.counted, x.2.id = y.2.id →
      x.2.name = y.2.name := by
    intro x member y member' same
    rw [Registry.eq_of_id_eq (genuine x member).mem_languages (genuine y member').mem_languages
      same]
  obtain ⟨totals, grand⟩ := survey'.sumsUp_aggregate.atMost survey.sumsUp_aggregate counted named
  have files : survey'.files.Sublist survey.files := by
    rw [survey.files_eq, survey'.files_eq]
    exact counted.map _
  exact ⟨goes, counted, files, failures, totals, grand⟩

/-! ## A directory excluded -/

def twoPlaces : FileTree :=
  [("a.py", .file {} (Text.encode "a\n")), ("b.py", .file {} (Text.encode "b\n")),
    ("d", .directory {} [("c.c", .file {} (Text.encode "c;\n"))])]

/-- The surveyor that leaves out all Python files but one. -/
def sparing (added : List Value) : Except Fault Surveyor :=
  make .standard .standard (.list ([.text "*.py", .text "!b.py"] ++ added)) (.bool true) (.int 4096)
    (.bool true)

theorem sparing_nil :
    (sparing []).map (fun s =>
      let survey := ((s.run twoPlaces ["."]).run []).1
      (survey.stopped, survey.files.map FileCounts.path)) = .ok (none, ["b.py", "d/c.c"]) := by
  cbv

theorem sparing_directory :
    (sparing [.text "d/"]).map (fun s =>
      ((s.run twoPlaces ["."]).run []).1.files.map FileCounts.path) = .ok ["b.py"] := by
  cbv

theorem run_with_exclusions_directory :
    ∃ s s', sparing [] = .ok s ∧ sparing [.text "d/"] = .ok s' ∧
      ((s.run twoPlaces ["."]).run []).1.files.map FileCounts.path = ["b.py", "d/c.c"] ∧
      ((s'.run twoPlaces ["."]).run []).1.files.map FileCounts.path = ["b.py"] ∧
      ((s'.run twoPlaces ["."]).run []).1.files.Sublist
        ((s.run twoPlaces ["."]).run []).1.files := by
  have plain : NegationFree [.text "d/"] := by
    intro line member
    cases List.mem_singleton.mp member
    unfold IsNegation
    decide
  have counted := sparing_nil
  have counted' := sparing_directory
  cases accepted : sparing [] with
  | error fault =>
      rw [accepted] at counted
      cases counted
  | ok s =>
      cases accepted' : sparing [.text "d/"] with
      | error fault =>
          rw [accepted'] at counted'
          cases counted'
      | ok s' =>
          rw [accepted] at counted
          rw [accepted'] at counted'
          obtain ⟨going, files⟩ := Prod.mk.inj (Except.ok.inj counted)
          refine ⟨s, s', rfl, rfl, files, Except.ok.inj counted', ?_⟩
          exact (run_with_exclusions twoPlaces ["."] PatternPackage.standard_decidesBy accepted
            accepted' plain (Classifiers.of_nil _) (Classifiers.of_nil _) going).2.2.1

end Surveyor

end Bytewise

import Bytewise.Proofs.FileTree.Places
import Bytewise.Proofs.Source.Detection
import Bytewise.Proofs.Survey.Basic
import Bytewise.Survey.Surveyor

/-!
# Work that does not depend on the work before it

A surveyor keeps the classifiers that were made, and looks them up by the identifier of a language
alone. That is safe because an identifier stands for one registered language only: as long as the
classifiers kept are those of registered languages (`Classifiers.Of`), looking one up gives what
making it anew would give (`Classifiers.provide_eq`). Everything a surveyor does is then `Steady`:
it comes to what it would come to if nothing had been made before, and again leaves classifiers of
registered languages.

For steady work, surveys made in turn are just joined (`Survey.fresh_inTurn`). From there on the
classifiers need not be mentioned any more.
-/

namespace Bytewise

/-! ## Classifiers of registered languages -/

/-- There is one classifier for a language. -/
theorem Classifier.make_language (c : Classifier) : make c.language = .ok c := by
  obtain ⟨language, markers, encoded⟩ := c
  rw [make]
  split
  next markers' encoded' =>
    cases encoded.symm.trans encoded'
    rfl
  next fault refused => cases encoded.symm.trans refused

theorem Classifier.language_of_make {l : Language} {c : Classifier} (made : make l = .ok c) :
    c.language = l := by
  rw [make] at made
  split at made <;> cases made
  rfl

/-- Making a classifier fails only because a marker cannot be encoded. -/
theorem Classifier.make_error {l : Language} {fault : Fault} (refused : make l = .error fault) :
    fault = .unencodable := by
  rw [make] at refused
  split at refused
  · cases refused
  next other encoded =>
    cases refused
    rw [Language.markers] at encoded
    split at encoded <;> cases encoded
    rfl

namespace Classifiers

/-- The classifiers kept are those of registered languages, each under its identifier. -/
def Of (r : Registry) (made : Classifiers) : Prop :=
  ∀ id classifier, (id, classifier) ∈ made →
    classifier.language ∈ r.languages ∧ classifier.language.id = id

variable {r : Registry} {made : Classifiers} {l : Language}

theorem of_nil (r : Registry) : Of r [] := nofun

/-- A classifier that is kept under the identifier of a registered language is one for it. -/
theorem Of.language_eq (kept : made.Of r) (known : l ∈ r.languages) {classifier : Classifier}
    (found : made.lookup l.id = some classifier) : classifier.language = l := by
  obtain ⟨before, after, rfl, _⟩ := List.lookup_eq_some_iff.mp found
  obtain ⟨known', sameId⟩ := kept l.id classifier (by simp)
  exact r.eq_of_id_eq known' known sameId

/-- The classifier provided for a registered language is the one that would be made for it. -/
theorem provide_eq (kept : made.Of r) (known : l ∈ r.languages) {c : Classifier}
    (makes : Classifier.make l = .ok c) :
    ∃ made', made.provide l = .ok (c, made') ∧ Of r made' := by
  rw [provide]
  split
  next classifier found =>
    have same := kept.language_eq known found
    cases (Classifier.make_language classifier).symm.trans (same ▸ makes)
    exact ⟨_, rfl, kept⟩
  next =>
    refine ⟨(l.id, c) :: made, by rw [makes]; rfl, ?_⟩
    intro id classifier member
    obtain same | before := List.mem_cons.mp member
    · cases same
      rw [Classifier.language_of_make makes]
      exact ⟨known, rfl⟩
    · exact kept id classifier before

/-- A registered language that has no classifier is provided with none. -/
theorem provide_error (kept : made.Of r) (known : l ∈ r.languages) {fault : Fault}
    (fails : Classifier.make l = .error fault) : made.provide l = .error fault := by
  rw [provide]
  split
  next classifier found =>
    have same := kept.language_eq known found
    cases (Classifier.make_language classifier).symm.trans (same ▸ fails)
  next => rw [fails]; rfl

end Classifiers

/-! ## Steady work -/

namespace Work

variable {α β : Type} {r : Registry}

/-- What work comes to if no classifier was made before it. -/
def fresh (w : Work α) : α := (w.run []).1

/-- Work that comes to the same whatever classifiers of registered languages were made before, and
leaves classifiers of registered languages. -/
def Steady (r : Registry) (w : Work α) : Prop :=
  ∀ made : Classifiers, made.Of r → (w.run made).1 = w.fresh ∧ (w.run made).2.Of r

@[simp] theorem fresh_pure (a : α) : (pure a : Work α).fresh = a := rfl

@[simp] theorem fresh_map (f : α → β) (w : Work α) : (f <$> w : Work β).fresh = f w.fresh := rfl

theorem steady_pure (a : α) : (pure a : Work α).Steady r := fun _ kept => ⟨rfl, kept⟩

theorem Steady.map {w : Work α} (steady : w.Steady r) (f : α → β) : (f <$> w : Work β).Steady r :=
  fun made kept => ⟨congrArg f (steady made kept).1, (steady made kept).2⟩

end Work

namespace Survey

variable {r : Registry}

theorem run_inTurn_cons (work : Work Survey) (rest : List (Work Survey)) (made : Classifiers) :
    (inTurn (work :: rest)).run made =
      if (work.run made).1.stopped.isSome then work.run made
      else ((work.run made).1 ++ ((inTurn rest).run (work.run made).2).1,
        ((inTurn rest).run (work.run made).2).2) := by
  have begun : (inTurn (work :: rest)).run made =
      StateT.run (if (work.run made).1.stopped.isSome then pure (work.run made).1
        else do return (work.run made).1 ++ (← inTurn rest)) (work.run made).2 := rfl
  rw [begun]
  split <;> rfl

theorem run_inTurn {works : List (Work Survey)} (steady : ∀ w ∈ works, w.Steady r)
    {made : Classifiers} (kept : made.Of r) :
    ((inTurn works).run made).1 = join (works.map Work.fresh) ∧
      ((inTurn works).run made).2.Of r := by
  induction works generalizing made with
  | nil => exact ⟨rfl, kept⟩
  | cons work rest ih =>
      rw [List.forall_mem_cons] at steady
      obtain ⟨same, kept'⟩ := steady.1 made kept
      rw [run_inTurn_cons, List.map_cons, join]
      split
      next stopped =>
        rw [same] at stopped
        exact ⟨same.trans (append_of_stopped stopped _).symm, kept'⟩
      next =>
        obtain ⟨others, kept''⟩ := ih steady.2 kept'
        exact ⟨by rw [same, others], kept''⟩

/-- Steady surveys made in turn are joined. -/
theorem fresh_inTurn {works : List (Work Survey)} (steady : ∀ w ∈ works, w.Steady r) :
    (inTurn works).fresh = join (works.map Work.fresh) :=
  (run_inTurn steady (Classifiers.of_nil r)).1

theorem steady_inTurn {works : List (Work Survey)} (steady : ∀ w ∈ works, w.Steady r) :
    (inTurn works).Steady r := by
  intro made kept
  obtain ⟨same, kept'⟩ := run_inTurn steady kept
  exact ⟨same.trans (fresh_inTurn steady).symm, kept'⟩

end Survey

/-! ## The work of a surveyor -/

namespace Surveyor

variable {s : Surveyor} {t : FileTree} {path : Text}

/-- What classifying a file in a registered language comes to, whatever classifiers were made
before. -/
theorem classifyFile_eq (t : FileTree) (path : Text) {made : Classifiers}
    (kept : made.Of s.registry) {l : Language}
    (known : l ∈ s.registry.languages) :
    match s.classifyFile t path l [], s.classifyFile t path l made with
    | .ok (counts, _), .ok (counts', made') => counts' = counts ∧ made'.Of s.registry
    | .error fault, .error fault' => fault' = fault
    | _, _ => False := by
  simp only [classifyFile]
  cases t.openBuffer path s.mapping with
  | error fault => rfl
  | ok buffer =>
      cases makes : Classifier.make l with
      | error fault =>
          have first := Classifiers.provide_error (Classifiers.of_nil s.registry) known makes
          have again := Classifiers.provide_error kept known makes
          simp only [bind, Except.bind, first, again]
      | ok classifier =>
          obtain ⟨_, first, _⟩ :=
            Classifiers.provide_eq (Classifiers.of_nil s.registry) known makes
          obtain ⟨made', again, kept'⟩ := Classifiers.provide_eq kept known makes
          simp only [bind, Except.bind, first, again, pure, Except.pure]
          exact ⟨trivial, kept'⟩

theorem steady_countFile (s : Surveyor) (t : FileTree) (path : Text) :
    (s.countFile t path).Steady s.registry := by
  intro made kept
  simp only [Work.fresh, countFile, StateT.run]
  cases detected : (s.registry.detectFile t path s.sniff).language with
  | error fault => exact ⟨rfl, kept⟩
  | ok language =>
      cases language with
      | none => exact ⟨rfl, kept⟩
      | some language =>
          have same := classifyFile_eq t path kept (s.registry.mem_of_detectFile detected)
          split at same
          next first again =>
            simp only [first, again]
            exact ⟨by rw [same.1], same.2⟩
          next first again =>
            simp only [first, again]
            exact ⟨by rw [same], kept⟩
          next => exact same.elim

theorem steady_visitFile (s : Surveyor) (t : FileTree) (path : Text) :
    (s.visitFile t path).Steady s.registry := (s.steady_countFile t path).map _

theorem steady_meet (s : Surveyor) (t : FileTree) (path : Path) (name : Text)
    (treatment : Treatment) : (s.meet t path name treatment).Steady s.registry := by
  cases treatment with
  | counted => exact s.steady_visitFile t _
  | _ => exact Work.steady_pure _

def entryWork (s : Surveyor) (t : FileTree) (path : Path) (relative : List Text) (access : Access)
    (e : Text × Node) : Work Survey :=
  match s.treatment path relative access e.1 e.2 with
  | .entered => s.walk t (path.child e.1) (relative ++ [e.1]) e.2
  | treatment => s.meet t path e.1 treatment

theorem walkEntries_eq_map (s : Surveyor) (t : FileTree) (path : Path) (relative : List Text)
    (access : Access) (entries : List (Text × Node)) :
    s.walkEntries t path relative access entries =
      entries.map fun e => (e.1, s.entryWork t path relative access e) := by
  induction entries with
  | nil => rw [walkEntries, List.map_nil]
  | cons e rest ih =>
      rw [walkEntries, ih]
      rfl

def sortedEntries (entries : List (Text × Node)) : List (Text × Node) :=
  entries.mergeSort fun e f => e.1.le f.1

/-- A directory that can be listed is worked on entry by entry, in the order of the names. -/
theorem walk_listed {access : Access} (listed : access.read = true) (path : Path)
    (relative : List Text) (entries : List (Text × Node)) :
    s.walk t path relative (.directory access entries) =
      Survey.inTurn ((sortedEntries entries).map (s.entryWork t path relative access)) := by
  have sorted := @List.map_mergeSort _ _ (fun e f => e.1.le f.1) (fun e f => e.1.le f.1)
    (fun e => (e.1, s.entryWork t path relative access e)) entries (fun _ _ _ _ => rfl)
  rw [walk, if_pos listed, inOrder, walkEntries_eq_map, ← sorted, List.map_map, sortedEntries]
  rfl

theorem steady_walk (s : Surveyor) (t : FileTree) (path : Path) (relative : List Text)
    (node : Node) : (s.walk t path relative node).Steady s.registry := by
  induction node using Node.insideInduction generalizing path relative with
  | file access data =>
      rw [walk]
      exact Work.steady_pure _
  | link target =>
      rw [walk]
      exact Work.steady_pure _
  | directory access entries ih =>
      cases listed : access.read with
      | false =>
          rw [walk, listed]
          exact Work.steady_pure _
      | true =>
          rw [walk_listed listed]
          apply Survey.steady_inTurn
          intro work member
          obtain ⟨e, sorted, rfl⟩ := List.mem_map.mp member
          have member : e ∈ entries := List.mem_mergeSort.mp sorted
          rw [entryWork]
          split
          · exact ih e member _ _
          · exact s.steady_meet t path e.1 _

/-- The survey of a directory that can be listed joins those of its entries. -/
theorem fresh_walk_listed {access : Access} (listed : access.read = true) (path : Path)
    (relative : List Text) (entries : List (Text × Node)) :
    (s.walk t path relative (.directory access entries)).fresh =
      Survey.join ((sortedEntries entries).map fun e =>
        (s.entryWork t path relative access e).fresh) := by
  rw [walk_listed listed, Survey.fresh_inTurn (r := s.registry), List.map_map]
  · rfl
  · intro work member
    obtain ⟨e, _, rfl⟩ := List.mem_map.mp member
    rw [entryWork]
    split
    · exact s.steady_walk t _ _ _
    · exact s.steady_meet t path e.1 _

theorem steady_scan (s : Surveyor) (t : FileTree) (path : Path) :
    (s.scan t path).Steady s.registry := by
  rw [scan]
  split
  case h_3 => exact s.steady_walk t path [] _
  all_goals exact Work.steady_pure _

theorem steady_visit (s : Surveyor) (t : FileTree) (given : Text) :
    (s.visit t given).Steady s.registry := by
  rw [visit]
  split
  case h_3 => exact s.steady_scan t _
  case h_4 => exact (s.steady_countFile t _).map _
  all_goals exact Work.steady_pure _

theorem steady_run (s : Surveyor) (t : FileTree) (paths : List Text) :
    (s.run t paths).Steady s.registry := by
  apply Survey.steady_inTurn
  intro work member
  obtain ⟨given, _, rfl⟩ := List.mem_map.mp member
  exact s.steady_visit t given

/-- The survey of a request joins those of its paths. -/
theorem fresh_run (s : Surveyor) (t : FileTree) (paths : List Text) :
    (s.run t paths).fresh = Survey.join (paths.map fun given => (s.visit t given).fresh) := by
  rw [run, Survey.fresh_inTurn (r := s.registry), List.map_map]
  · rfl
  · intro work member
    obtain ⟨given, _, rfl⟩ := List.mem_map.mp member
    exact s.steady_visit t given

/-- A path that leads to a directory is surveyed as a directory. -/
theorem fresh_visit_directory {given : Text} {access : Access} {entries : List (Text × Node)}
    (found : t.find (Path.ofText given).toText = .ok (.directory access entries)) :
    (s.visit t given).fresh = (s.scan t (Path.ofText given)).fresh := by
  simp only [visit, found]

/-- A path that leads anywhere else is counted as a file. -/
theorem fresh_visit_named {given : Text} {node : Node}
    (found : t.find (Path.ofText given).toText = .ok node) (named : node.isDirectory = false) :
    (s.visit t given).fresh =
      (s.countFile t (Path.ofText given).toText).fresh.namedSurvey (Path.ofText given).toText
        given := by
  cases node with
  | directory => cases named
  | _ => simp only [visit, found, Work.fresh_map]

end Surveyor

end Bytewise

import Bytewise.Proofs.Survey.Work
import Bytewise.Proofs.Text.Order

/-!
# The trace of a walk

A walk branches at every directory it enters, and each branch ends somewhere: at a directory that
cannot be listed, or at an entry that is dealt with where it stands. `Surveyor.Ends` says which
places are ends of branches, following the tree and not the order of the walk. `traces_walk` ties
the two together: the survey of a walk is what is found at its ends, each of them once, in the order
of their places.
-/

namespace Bytewise

namespace Path

@[simp] theorem parent_child (p : Path) (name : Text) : (p.child name).parent = p := by
  simp [parent, child]

@[simp] theorem name_child (p : Path) (name : Text) : (p.child name).name = name := by
  simp [Path.name, child]

end Path

namespace Surveyor

/-! ## The ends of a walk -/

inductive Ending where
  /-- At a directory that cannot be listed. -/
  | unlisted
  /-- At an entry that is dealt with where it stands. -/
  | met (treatment : Treatment)

/-- What is found at the end of a branch. -/
def Ending.survey (s : Surveyor) (t : FileTree) (place : Path) : Ending → Survey
  | .unlisted => Surveyor.unlisted place.toText .denied
  | .met treatment => (s.meet t place.parent place.name treatment).fresh

/-- A walk below a node has an end at a place, which is given by the names that lead there. -/
inductive Ends (s : Surveyor) : Path → List Text → Node → List Text → Ending → Prop where
  | unlisted {path : Path} {relative : List Text} {access : Access}
      {entries : List (Text × Node)} (unlisted : access.read = false) :
      Ends s path relative (.directory access entries) [] .unlisted
  | met {path : Path} {relative : List Text} {access : Access} {entries : List (Text × Node)}
      {name : Text} {node : Node} (listed : access.read = true) (member : (name, node) ∈ entries)
      (stays : s.treatment path relative access name node ≠ .entered) :
      Ends s path relative (.directory access entries) [name]
        (.met (s.treatment path relative access name node))
  | inside {path : Path} {relative : List Text} {access : Access}
      {entries : List (Text × Node)} {name : Text} {node : Node} {rest : List Text}
      {ending : Ending} (listed : access.read = true) (member : (name, node) ∈ entries)
      (enters : s.treatment path relative access name node = .entered)
      (ends : Ends s (path.child name) (relative ++ [name]) node rest ending) :
      Ends s path relative (.directory access entries) (name :: rest) ending

variable {s : Surveyor} {t : FileTree} {path : Path} {relative names : List Text}
  {access : Access} {entries : List (Text × Node)} {ending : Ending}

theorem Ends.met_of_eq {name : Text} {node : Node} {treatment : Treatment}
    (listed : access.read = true) (member : (name, node) ∈ entries)
    (treated : s.treatment path relative access name node = treatment)
    (stays : treatment ≠ .entered) :
    s.Ends path relative (.directory access entries) [name] (.met treatment) := by
  subst treated
  exact .met listed member stays

def EntryEnds (s : Surveyor) (path : Path) (relative : List Text) (access : Access)
    (e : Text × Node) (names : List Text) (ending : Ending) : Prop :=
  match s.treatment path relative access e.1 e.2 with
  | .entered =>
    ∃ rest, names = e.1 :: rest ∧ s.Ends (path.child e.1) (relative ++ [e.1]) e.2 rest ending
  | treatment => names = [e.1] ∧ ending = .met treatment

theorem entryEnds_of_entered {e : Text × Node}
    (enters : s.treatment path relative access e.1 e.2 = .entered) :
    s.EntryEnds path relative access e names ending ↔
      ∃ rest, names = e.1 :: rest ∧
        s.Ends (path.child e.1) (relative ++ [e.1]) e.2 rest ending := by
  rw [EntryEnds, enters]

theorem entryEnds_of_not_entered {e : Text × Node}
    (stays : s.treatment path relative access e.1 e.2 ≠ .entered) :
    s.EntryEnds path relative access e names ending ↔
      names = [e.1] ∧ ending = .met (s.treatment path relative access e.1 e.2) := by
  rw [EntryEnds]
  split
  next enters => exact absurd enters stays
  next => rfl

theorem exists_cons_of_entryEnds {e : Text × Node}
    (ends : s.EntryEnds path relative access e names ending) : ∃ rest, names = e.1 :: rest := by
  by_cases enters : s.treatment path relative access e.1 e.2 = .entered
  · obtain ⟨rest, same, _⟩ := (entryEnds_of_entered enters).mp ends
    exact ⟨rest, same⟩
  · exact ⟨[], ((entryEnds_of_not_entered enters).mp ends).1⟩

theorem ends_unlisted_iff (unlisted : access.read = false) :
    s.Ends path relative (.directory access entries) names ending ↔
      names = [] ∧ ending = .unlisted := by
  constructor
  · intro ends
    cases ends with
    | unlisted => exact ⟨rfl, rfl⟩
    | met listed => cases unlisted.symm.trans listed
    | inside listed => cases unlisted.symm.trans listed
  · rintro ⟨rfl, rfl⟩
    exact .unlisted unlisted

/-- The ends below a directory that can be listed are those of its entries. -/
theorem ends_listed_iff (listed : access.read = true) :
    s.Ends path relative (.directory access entries) names ending ↔
      ∃ e ∈ entries, s.EntryEnds path relative access e names ending := by
  constructor
  · intro ends
    cases ends with
    | unlisted unlisted => cases unlisted.symm.trans listed
    | @met _ _ _ _ name node _ member stays =>
        have here := (entryEnds_of_not_entered (e := (name, node)) stays).mpr ⟨rfl, rfl⟩
        exact ⟨(name, node), member, here⟩
    | @inside _ _ _ _ name node rest _ _ member enters ends =>
        have below := (entryEnds_of_entered (e := (name, node)) enters).mpr ⟨rest, rfl, ends⟩
        exact ⟨(name, node), member, below⟩
  · rintro ⟨e, member, ends⟩
    by_cases enters : s.treatment path relative access e.1 e.2 = .entered
    · obtain ⟨rest, rfl, further⟩ := (entryEnds_of_entered enters).mp ends
      exact .inside listed member enters further
    · obtain ⟨rfl, rfl⟩ := (entryEnds_of_not_entered enters).mp ends
      exact .met listed member enters

/-! ## Surveys traced to the ends of a walk -/

/-- A survey is what is found at certain ends of a walk, each of them once, in the order of their
places. -/
def Traces (s : Surveyor) (t : FileTree) (path : Path) (survey : Survey)
    (ends : List Text → Ending → Prop) : Prop :=
  ∃ trace : List (List Text × Ending),
    survey = .join (trace.map fun x => x.2.survey s t (path.below x.1)) ∧
    trace.Pairwise (fun x y => PlaceBefore x.1 y.1) ∧
    ∀ names ending, (names, ending) ∈ trace ↔ ends names ending

namespace Traces

variable {survey survey' : Survey} {ends ends' : List Text → Ending → Prop}

theorem empty : Traces s t path {} fun _ _ => False :=
  ⟨[], rfl, .nil, by simp⟩

theorem single (names : List Text) (ending : Ending) :
    Traces s t path (ending.survey s t (path.below names)) fun n e => n = names ∧ e = ending :=
  ⟨[(names, ending)], by simp, by simp, by simp⟩

theorem congr (traces : Traces s t path survey ends)
    (same : ∀ names ending, ends names ending ↔ ends' names ending) :
    Traces s t path survey ends' := by
  obtain ⟨trace, joined, ordered, members⟩ := traces
  exact ⟨trace, joined, ordered, fun names ending => (members names ending).trans (same _ _)⟩

theorem append (first : Traces s t path survey ends) (second : Traces s t path survey' ends')
    (before : ∀ n e n' e', ends n e → ends' n' e' → PlaceBefore n n') :
    Traces s t path (survey ++ survey') fun n e => ends n e ∨ ends' n e := by
  obtain ⟨trace, rfl, ordered, members⟩ := first
  obtain ⟨trace', rfl, ordered', members'⟩ := second
  refine ⟨trace ++ trace', by rw [List.map_append, Survey.join_append], ?_, ?_⟩
  · refine List.pairwise_append.mpr ⟨ordered, ordered', fun x inFirst y inSecond => ?_⟩
    exact before _ _ _ _ ((members x.1 x.2).mp inFirst) ((members' y.1 y.2).mp inSecond)
  · intro names ending
    rw [List.mem_append, members, members']

/-- What is found inside a directory is found below the directory that holds it. -/
theorem inside {name : Text} (traces : Traces s t (path.child name) survey ends) :
    Traces s t path survey fun n e => ∃ rest, n = name :: rest ∧ ends rest e := by
  obtain ⟨trace, rfl, ordered, members⟩ := traces
  refine ⟨trace.map fun x => (name :: x.1, x.2), ?_, ?_, ?_⟩
  · simp [Function.comp_def]
  · rw [List.pairwise_map]
    exact ordered.imp fun before => before.cons name
  · intro names ending
    simp only [List.mem_map, Prod.mk.injEq, Prod.exists, members]
    constructor
    · rintro ⟨rest, _, found, rfl, rfl⟩
      exact ⟨rest, rfl, found⟩
    · rintro ⟨rest, rfl, found⟩
      exact ⟨rest, ending, found, rfl, rfl⟩

end Traces

/-- The survey of an entry is what is found at its ends, if that holds of what is inside it. -/
theorem traces_entry {e : Text × Node}
    (inner : ∀ path relative, Traces s t path (s.walk t path relative e.2).fresh
      (s.Ends path relative e.2)) :
    Traces s t path (s.entryWork t path relative access e).fresh
      (s.EntryEnds path relative access e) := by
  by_cases enters : s.treatment path relative access e.1 e.2 = .entered
  · have work : s.entryWork t path relative access e =
        s.walk t (path.child e.1) (relative ++ [e.1]) e.2 := by rw [entryWork, enters]
    rw [work]
    exact (inner _ _).inside.congr fun _ _ => (entryEnds_of_entered enters).symm
  · have work : s.entryWork t path relative access e =
        s.meet t path e.1 (s.treatment path relative access e.1 e.2) := by
      rw [entryWork]
      split
      next entered => exact absurd entered enters
      next => rfl
    have here : ((s.meet t path e.1 (s.treatment path relative access e.1 e.2)).fresh) =
        (Ending.met (s.treatment path relative access e.1 e.2)).survey s t (path.below [e.1]) := by
      have place : path.below [e.1] = path.child e.1 := by simp [Path.below, Path.child]
      simp [Ending.survey, place]
    rw [work, here]
    exact (Traces.single _ _).congr fun _ _ => (entryEnds_of_not_entered enters).symm

/-- The survey of entries in strict order is what is found at their ends. -/
theorem traces_entries
    (inner : ∀ e ∈ entries, ∀ path relative, Traces s t path (s.walk t path relative e.2).fresh
      (s.Ends path relative e.2))
    (ordered : entries.Pairwise (·.1.Before ·.1)) :
    Traces s t path
      (.join (entries.map fun e => (s.entryWork t path relative access e).fresh))
      fun names ending => ∃ e ∈ entries, s.EntryEnds path relative access e names ending := by
  induction entries with
  | nil => exact Traces.empty.congr (by simp)
  | cons e rest ih =>
      rw [List.forall_mem_cons] at inner
      obtain ⟨first, ordered⟩ := List.pairwise_cons.mp ordered
      refine ((traces_entry inner.1).append (ih inner.2 ordered) ?_).congr (by simp)
      rintro names _ names' _ ends ⟨e', later, ends'⟩
      obtain ⟨_, rfl⟩ := exists_cons_of_entryEnds ends
      obtain ⟨_, rfl⟩ := exists_cons_of_entryEnds ends'
      exact .of_name (first e' later) _ _

/-- The survey of a walk is what is found at its ends, each of them once, in the order of their
places. -/
theorem traces_walk {node : Node} (wellFormed : node.WellFormed) (path : Path)
    (relative : List Text) :
    Traces s t path (s.walk t path relative node).fresh (s.Ends path relative node) := by
  induction node using Node.insideInduction generalizing path relative with
  | file access data =>
      rw [walk, Work.fresh_pure]
      refine Traces.empty.congr fun _ _ => ⟨False.elim, fun ends => ?_⟩
      cases ends
  | link target =>
      rw [walk, Work.fresh_pure]
      refine Traces.empty.congr fun _ _ => ⟨False.elim, fun ends => ?_⟩
      cases ends
  | directory access entries ih =>
      cases listed : access.read with
      | false =>
          have found : (s.walk t path relative (.directory access entries)).fresh =
              Ending.unlisted.survey s t (path.below []) := by
            simp [walk, listed, Ending.survey]
          rw [found]
          exact (Traces.single [] .unlisted).congr fun _ _ => (ends_unlisted_iff listed).symm
      | true =>
          have members (e : Text × Node) : e ∈ sortedEntries entries ↔ e ∈ entries :=
            List.mem_mergeSort
          rw [fresh_walk_listed listed]
          refine (traces_entries ?_ ?_).congr fun names ending => ?_
          · intro e member path relative
            rw [members] at member
            exact ih e member (wellFormed.inside member) path relative
          · exact Text.pairwise_before_mergeSort entries wellFormed.entries_distinct
          · simp [members, ends_listed_iff listed]

end Surveyor

end Bytewise

import Bytewise.Proofs.Survey.Work
import Mathlib

/-!
# Counting one file

`Surveyor.counting` says once what counting a file can come to; everything else about single files
follows from it. A file is counted if its language is detected, its content can be read and the
markers of the language can be compared with bytes. If it is not, then either the file is to blame,
which a survey records or notes before it goes on, or the survey is stopped.
-/

namespace Bytewise

/-! ## Opening a file -/

namespace FileTree

variable {t : FileTree} {name : Text} {data : Bytes} {fault : Fault}

theorem openBuffer_of_openRaw (opened : t.openRaw name = .ok data) (mapping : Bool) :
    ∃ buffer, t.openBuffer name mapping = .ok buffer ∧ buffer.bytes = data := by
  simp only [openBuffer, openFile, opened, Except.mapError, bind, Except.bind, pure, Except.pure,
    Except.ok.injEq, exists_eq_left']
  split <;> rfl

theorem openBuffer_of_refused (refused : t.openRaw name = .error fault) (mapping : Bool) :
    t.openBuffer name mapping = .error (fault.asUnreadable name) := by
  simp only [openBuffer, openFile, refused, Except.mapError, bind, Except.bind]

/-- Only the system refuses to open what a name leads to. -/
theorem openRaw_ne_error_of_find {node : Node} (found : t.find name = .ok node)
    (system : ∀ cause, fault ≠ .system cause) : t.openRaw name ≠ .error fault := by
  intro refused
  simp only [openRaw, found] at refused
  cases content : node.content with
  | error cause =>
      rw [content] at refused
      cases refused
      exact system cause rfl
  | ok data =>
      rw [content] at refused
      cases refused

end FileTree

/-! ## The outcomes -/

namespace Surveyor

variable {s : Surveyor} {t : FileTree} {path : Text}

inductive Counting (s : Surveyor) (t : FileTree) (path : Text) :
    Except Fault (FileCounts × Language) → Prop where
  | counted {l : Language} {data : Bytes} {c : Classifier}
      (detected : (s.registry.detectFile t path s.sniff).language = .ok (some l))
      (opened : t.openRaw path = .ok data) (makes : Classifier.make l = .ok c) :
      Counting s t path (.ok (c.count path data, l))
  | unknown (undetected : (s.registry.detectFile t path s.sniff).language = .ok none) :
      Counting s t path (.error (.unsupported path))
  | unreadable {l : Language} {cause : SystemFault}
      (detected : (s.registry.detectFile t path s.sniff).language = .ok (some l))
      (refused : t.openRaw path = .error (.system cause)) :
      Counting s t path (.error (.unreadable path cause.reason))
  | undetectable {fault : Fault}
      (failed : (s.registry.detectFile t path s.sniff).language = .error fault) :
      Counting s t path (.error fault)
  | unopenable {l : Language} {fault : Fault}
      (detected : (s.registry.detectFile t path s.sniff).language = .ok (some l))
      (refused : t.openRaw path = .error fault) (other : ∀ cause, fault ≠ .system cause) :
      Counting s t path (.error fault)
  | unencodable {l : Language} {data : Bytes}
      (detected : (s.registry.detectFile t path s.sniff).language = .ok (some l))
      (opened : t.openRaw path = .ok data) (fails : Classifier.make l = .error .unencodable) :
      Counting s t path (.error .unencodable)

/-- What counting a file comes to. -/
theorem counting (s : Surveyor) (t : FileTree) (path : Text) :
    s.Counting t path (s.countFile t path).fresh.counts := by
  simp only [Work.fresh, countFile, StateT.run]
  cases detected : (s.registry.detectFile t path s.sniff).language with
  | error fault => exact .undetectable detected
  | ok language =>
      cases language with
      | none => exact .unknown detected
      | some l =>
          cases opened : t.openRaw path with
          | error fault =>
              have refused := FileTree.openBuffer_of_refused opened s.mapping
              simp only [classifyFile, refused, bind, Except.bind]
              by_cases system : ∃ cause, fault = .system cause
              · obtain ⟨cause, rfl⟩ := system
                exact .unreadable detected opened
              · have other : ∀ cause, fault ≠ .system cause := fun cause same =>
                  system ⟨cause, same⟩
                have same : fault.asUnreadable path = fault := by
                  cases fault with
                  | system cause => exact absurd rfl (other cause)
                  | _ => rfl
                rw [same]
                exact .unopenable detected opened other
          | ok data =>
              obtain ⟨buffer, held, rfl⟩ := FileTree.openBuffer_of_openRaw opened s.mapping
              cases makes : Classifier.make l with
              | error fault =>
                  cases Classifier.make_error makes
                  simp only [classifyFile, held, Classifiers.provide, List.lookup, makes, bind,
                    Except.bind]
                  exact .unencodable detected opened makes
              | ok c =>
                  simp only [classifyFile, held, Classifiers.provide, List.lookup, makes, bind,
                    Except.bind, pure, Except.pure]
                  exact .counted detected opened makes

/-- A file is counted exactly if its language is detected, its content can be read and the language
has a classifier. -/
theorem counts_eq_ok_iff {counts : FileCounts} {l : Language} :
    (s.countFile t path).fresh.counts = .ok (counts, l) ↔
      (s.registry.detectFile t path s.sniff).language = .ok (some l) ∧
        ∃ data c, t.openRaw path = .ok data ∧ Classifier.make l = .ok c ∧
          counts = c.count path data := by
  have ending := s.counting t path
  constructor
  · intro result
    rw [result] at ending
    cases ending with
    | counted detected opened makes => exact ⟨detected, _, _, opened, makes, rfl⟩
  · rintro ⟨detected, data, c, opened, makes, rfl⟩
    generalize (s.countFile t path).fresh.counts = result at ending
    cases ending with
    | counted detected' opened' makes' =>
        cases detected.symm.trans detected'
        cases opened.symm.trans opened'
        cases makes.symm.trans makes'
        rfl
    | unknown undetected => cases detected.symm.trans undetected
    | unreadable _ refused => cases opened.symm.trans refused
    | undetectable failed => cases detected.symm.trans failed
    | unopenable _ refused _ => cases opened.symm.trans refused
    | unencodable detected' _ fails =>
        cases detected.symm.trans detected'
        cases makes.symm.trans fails

/-! ## The surveys of files -/

namespace FileOutcome

variable {outcome : FileOutcome} {counts : FileCounts × Language} {fault : Fault}

@[simp] theorem counted_noted (stopped : Option Fault) : (outcome.noted stopped).counted = [] := by
  simp [noted, Survey.counted, List.filterMap_map, SurveyEvent.counted?, Function.comp_def]

@[simp] theorem failures_noted (stopped : Option Fault) :
    (outcome.noted stopped).failures = [] := by
  simp [noted, Survey.failures_eq, List.filterMap_map, SurveyEvent.failed?, Function.comp_def]

@[simp] theorem stopped_noted (stopped : Option Fault) :
    (outcome.noted stopped).stopped = stopped := rfl

theorem counted_noted_append (u : Survey) : (outcome.noted ++ u).counted = u.counted := by
  rw [Survey.counted_append_of_going rfl, counted_noted, List.nil_append]

theorem failures_noted_append (u : Survey) : (outcome.noted ++ u).failures = u.failures := by
  rw [Survey.failures_append_of_going rfl, failures_noted, List.nil_append]

theorem counted_metSurvey (path : Text) :
    (outcome.metSurvey path).counted = outcome.counts.toOption.toList := by
  rw [metSurvey]
  split
  next result => rw [result]; exact counted_noted_append _
  next result => rw [result]; exact counted_noted_append _
  next result => rw [result]; exact counted_noted_append _
  next result => rw [result]; exact counted_noted _

theorem counted_namedSurvey (path given : Text) :
    (outcome.namedSurvey path given).counted = outcome.counts.toOption.toList := by
  rw [namedSurvey]
  split
  next result => rw [result]; exact counted_noted_append _
  next result => rw [result]; exact counted_noted_append _
  next result => rw [result]; exact counted_noted_append _
  next result => rw [result]; exact counted_noted _

/-- A file that is met on the way is recorded as a failure exactly if it cannot be read. -/
theorem mem_failures_metSurvey {path : Text} {failure : Text × Text} :
    failure ∈ (outcome.metSurvey path).failures ↔
      failure.1 = path ∧ ∃ blamed, outcome.counts = .error (.unreadable blamed failure.2) := by
  obtain ⟨blamed, reason⟩ := failure
  rw [metSurvey]
  split
  next result =>
    rw [result, failures_noted_append]
    simp [Survey.failures_eq, SurveyEvent.failed?]
  next result =>
    rw [result, failures_noted_append]
    simp [Survey.failures_eq, SurveyEvent.failed?, Survey.note]
  next result =>
    rw [result, failures_noted_append]
    simp [Survey.failures_eq, SurveyEvent.failed?, Survey.failure, eq_comm]
  next unreadable result =>
    rw [result, failures_noted]
    simpa using fun _ blamed => unreadable blamed reason

theorem stopped_noted_some_iff {other : Fault}
    (unsupported : ∀ blamed, other = .unsupported blamed → False)
    (unreadable : ∀ blamed reason, other = .unreadable blamed reason → False) :
    (outcome.noted (some other)).stopped = some fault ↔
      Except.error other = (.error fault : Except Fault (FileCounts × Language)) ∧
        ¬ fault.OfFile := by
  have notFile : ¬ other.OfFile := by
    cases other with
    | unsupported blamed => exact (unsupported blamed rfl).elim
    | unreadable blamed reason => exact (unreadable blamed reason rfl).elim
    | _ => exact id
  rw [stopped_noted, Option.some.injEq, Except.error.injEq]
  exact ⟨fun same => ⟨same, same ▸ notFile⟩, fun same => same.1⟩

/-- A survey is stopped by a file exactly if counting it fails by a fault that is not the file's. -/
theorem stopped_metSurvey {path : Text} :
    (outcome.metSurvey path).stopped = some fault ↔
      outcome.counts = .error fault ∧ ¬ fault.OfFile := by
  rw [metSurvey]
  split
  next result =>
    rw [result]
    simp
  next result =>
    rw [result]
    simpa [Survey.note] using fun same => same ▸ trivial
  next result =>
    rw [result]
    simpa [Survey.failure] using fun same => same ▸ trivial
  next other unsupported unreadable result =>
    rw [result]
    exact stopped_noted_some_iff unsupported unreadable

theorem stopped_namedSurvey {path given : Text} :
    (outcome.namedSurvey path given).stopped = some fault ↔
      outcome.counts = .error fault ∧ ¬ fault.OfFile := by
  rw [namedSurvey]
  split
  next result =>
    rw [result]
    simp
  next result =>
    rw [result]
    simpa [Survey.failure] using fun same => same ▸ trivial
  next result =>
    rw [result]
    simpa [Survey.failure] using fun same => same ▸ trivial
  next other unsupported unreadable result =>
    rw [result]
    exact stopped_noted_some_iff unsupported unreadable

end FileOutcome

/-! ## Everything that is counted -/

/-- A surveyor that goes by the languages known without a table. -/
def standard : Surveyor := { registry := .standard }

/-- A counted file is what counting the file under its path comes to. -/
def Genuine (s : Surveyor) (t : FileTree) (x : FileCounts × Language) : Prop :=
  (s.countFile t x.1.path).fresh.counts = .ok x

theorem genuine_iff {x : FileCounts × Language} :
    s.Genuine t x ↔
      (s.registry.detectFile t x.1.path s.sniff).language = .ok (some x.2) ∧
        ∃ data c, t.openRaw x.1.path = .ok data ∧ Classifier.make x.2 = .ok c ∧
          x.1 = c.count x.1.path data :=
  counts_eq_ok_iff

theorem Genuine.mem_languages {x : FileCounts × Language} (genuine : s.Genuine t x) :
    x.2 ∈ s.registry.languages :=
  s.registry.mem_of_detectFile (genuine_iff.mp genuine).1

theorem Genuine.languageId {x : FileCounts × Language} (genuine : s.Genuine t x) :
    x.1.languageId = x.2.id := by
  obtain ⟨_, _, c, _, makes, counts⟩ := genuine_iff.mp genuine
  rw [counts, ← Classifier.language_of_make makes]
  rfl

theorem genuine_of_counts {x : FileCounts × Language}
    (result : (s.countFile t path).fresh.counts = .ok x) : s.Genuine t x := by
  obtain ⟨_, _, _, _, _, counts⟩ := counts_eq_ok_iff.mp result
  have same : x.1.path = path := by rw [counts]; rfl
  rw [Genuine, same, result]

theorem genuine_of_mem_toList {x : FileCounts × Language}
    (member : x ∈ (s.countFile t path).fresh.counts.toOption.toList) : s.Genuine t x := by
  cases result : (s.countFile t path).fresh.counts with
  | error fault =>
      rw [result] at member
      cases member
  | ok y =>
      rw [result] at member
      cases List.mem_singleton.mp member
      exact genuine_of_counts result

theorem genuine_of_mem_meet {path : Path} {name : Text} {treatment : Treatment}
    {x : FileCounts × Language} (member : x ∈ (s.meet t path name treatment).fresh.counted) :
    s.Genuine t x := by
  cases treatment with
  | counted =>
      rw [meet, visitFile, Work.fresh_map, FileOutcome.counted_metSurvey] at member
      exact genuine_of_mem_toList member
  | _ => cases member

theorem genuine_of_mem_walk {path : Path} {relative : List Text} {node : Node}
    {x : FileCounts × Language} (member : x ∈ (s.walk t path relative node).fresh.counted) :
    s.Genuine t x := by
  induction node using Node.insideInduction generalizing path relative with
  | file access data =>
      rw [walk] at member
      cases member
  | link target =>
      rw [walk] at member
      cases member
  | directory access entries ih =>
      cases listed : access.read with
      | false =>
          rw [walk, listed] at member
          cases member
      | true =>
          rw [fresh_walk_listed listed] at member
          obtain ⟨u, among, inside⟩ := Survey.mem_counted_join member
          obtain ⟨e, sorted, rfl⟩ := List.mem_map.mp among
          rw [entryWork] at inside
          split at inside
          · exact ih e (List.mem_mergeSort.mp sorted) inside
          · exact genuine_of_mem_meet inside

theorem genuine_of_mem_visit {given : Text} {x : FileCounts × Language}
    (member : x ∈ (s.visit t given).fresh.counted) : s.Genuine t x := by
  rw [visit] at member
  split at member
  case h_3 =>
    rw [scan] at member
    split at member
    case h_3 => exact genuine_of_mem_walk member
    all_goals cases member
  case h_4 =>
    rw [Work.fresh_map, FileOutcome.counted_namedSurvey] at member
    exact genuine_of_mem_toList member
  all_goals cases member

/-- Whatever a request counts is genuine. -/
theorem genuine_of_mem_run {paths : List Text} {x : FileCounts × Language}
    (member : x ∈ (s.run t paths).fresh.counted) : s.Genuine t x := by
  rw [fresh_run] at member
  obtain ⟨u, among, inside⟩ := Survey.mem_counted_join member
  obtain ⟨given, _, rfl⟩ := List.mem_map.mp among
  exact genuine_of_mem_visit inside

end Surveyor

end Bytewise

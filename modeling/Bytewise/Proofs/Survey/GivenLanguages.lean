import Bytewise.Package.Standard
import Bytewise.Proofs.Survey.Losses

/-!
# Surveys by the languages given

A surveyor is set up with a registry, and its requests are to go by the languages of that registry
and no others (`Surveyor.GoesBy`). Any surveyor goes by the registry that it holds
(`goesBy_registry`). It holds the one that it was given unless that one has no languages, in which
case it holds the standard one instead; so it goes by the registry given exactly if there is a
language in it (`goesBy_iff_of_make`).
-/

namespace Bytewise.Surveyor

variable {s : Surveyor} {r : Registry} {t : FileTree} {paths : List Text} {text given : Text}
  {node : Node} {x : FileCounts × Language}

/-! ## The files of a request -/

/-- The files that a request comes to: those that it names, and those that are visible below the
directories that it names. Each is given by its path. -/
inductive Visits (s : Surveyor) (t : FileTree) (paths : List Text) : Text → Prop where
  | named {given : Text} {node : Node} (member : given ∈ paths)
      (found : t.find (Path.ofText given).toText = .ok node) (named : node.isDirectory = false) :
      Visits s t paths (Path.ofText given).toText
  | below {given : Text} {access : Access} {entries : List (Text × Node)} {place : List Text}
      (member : given ∈ paths)
      (found : t.find (Path.ofText given).toText = .ok (.directory access entries))
      (visible : s.Visible [] (.directory access entries) place) :
      Visits s t paths ((Path.ofText given).below place).toText

/-- A surveyor counts files in the languages of a registry: a file is counted in a language exactly
if the request comes to it, the registry detects the language for it, and it can be read; and a file
that is named in the request is a failure if the registry detects no language for it. -/
structure GoesBy (s : Surveyor) (r : Registry) : Prop where
  counted_iff : ∀ {t : FileTree} {paths : List Text} {made : Classifiers} {text : Text}
    {l : Language}, t.WellFormed → made.Of s.registry →
      ((s.run t paths).run made).1.stopped = none →
      ((∃ counts, (counts, l) ∈ ((s.run t paths).run made).1.counted ∧ counts.path = text) ↔
        s.Visits t paths text ∧ (r.detectFile t text s.sniff).language = .ok (some l) ∧
          ∃ data, t.openRaw text = .ok data)
  unsupported : ∀ {t : FileTree} {paths : List Text} {made : Classifiers} {given : Text}
    {node : Node}, made.Of s.registry → ((s.run t paths).run made).1.stopped = none →
      given ∈ paths → t.find (Path.ofText given).toText = .ok node → node.isDirectory = false →
      (r.detectFile t (Path.ofText given).toText s.sniff).language = .ok none →
      (given, Text.ofString "unsupported language") ∈ ((s.run t paths).run made).1.failures

/-- Whatever is counted is counted in a language of the registry. -/
theorem GoesBy.mem_languages (goes : s.GoesBy r) {made : Classifiers} (wellFormed : t.WellFormed)
    (kept : made.Of s.registry) (going : ((s.run t paths).run made).1.stopped = none)
    (member : x ∈ ((s.run t paths).run made).1.counted) : x.2 ∈ r.languages := by
  obtain ⟨_, detected, _⟩ := (goes.counted_iff wellFormed kept going).mp ⟨x.1, member, rfl⟩
  exact Registry.mem_of_detectFile detected

/-! ## Requests by the registry that is held -/

section Request

variable (going : (s.run t paths).fresh.stopped = none)
include going

theorem going_visit_of_run (member : given ∈ paths) : (s.visit t given).fresh.stopped = none := by
  rw [fresh_run, Survey.stopped_join_eq_none_iff, List.forall_mem_map] at going
  exact going given member

theorem mem_counted_run_iff_exists :
    x ∈ (s.run t paths).fresh.counted ↔ ∃ given ∈ paths, x ∈ (s.visit t given).fresh.counted := by
  rw [fresh_run] at going ⊢
  rw [Survey.counted_join_of_going going, List.flatMap_map, List.mem_flatMap]

theorem mem_failures_run_of_visit {failure : Text × Text} (member : given ∈ paths)
    (failed : failure ∈ (s.visit t given).fresh.failures) :
    failure ∈ (s.run t paths).fresh.failures := by
  rw [fresh_run] at going ⊢
  rw [Survey.failures_join_of_going going, List.flatMap_map, List.mem_flatMap]
  exact ⟨given, member, failed⟩

/-- A file that is counted is one that the request comes to. -/
theorem visits_of_mem_counted (wellFormed : t.WellFormed)
    (counted : x ∈ (s.run t paths).fresh.counted) : s.Visits t paths x.1.path := by
  obtain ⟨given, member, here⟩ := (mem_counted_run_iff_exists going).mp counted
  cases found : t.find (Path.ofText given).toText with
  | error fault =>
      simp only [visit, found] at here
      cases fault <;> cases here
  | ok node =>
      cases directory : node.isDirectory with
      | false =>
          rw [fresh_visit_named found directory, FileOutcome.counted_namedSurvey] at here
          have path : x.1.path = (Path.ofText given).toText := by
            cases result : (s.countFile t (Path.ofText given).toText).fresh.counts with
            | error fault =>
                rw [result] at here
                cases here
            | ok y =>
                rw [result] at here
                cases List.mem_singleton.mp here
                obtain ⟨_, _, _, _, _, counts⟩ := counts_eq_ok_iff.mp result
                rw [counts]
                rfl
          rw [path]
          exact .named member found directory
      | true =>
          obtain ⟨access, entries, rfl⟩ := Node.isDirectory_iff.mp directory
          have goes := going_visit_of_run going member
          rw [fresh_visit_directory found] at here goes
          obtain ⟨place, ending, ends, there⟩ :=
            (mem_counted_scan_iff wellFormed found goes).mp here
          have isCounted : ending = .met .counted := Classical.not_not.mp fun other => by
            rw [Ending.counted_survey_of_ne other] at there
            cases there
          subst isCounted
          obtain nothing | ⟨y, only, path⟩ := counted_end (t := t) ends
          · rw [nothing] at there
            cases there
          · rw [only, List.mem_singleton] at there
            rw [there, path]
            exact .below member found
              (ends.visible (FileTree.wellFormed_of_find wellFormed found)).1

/-- Where a request comes to a file that can be read, there is what counting the file comes to. -/
theorem outcome_of_visits (wellFormed : t.WellFormed) (visits : s.Visits t paths text)
    {data : Bytes} (opened : t.openRaw text = .ok data) :
    (∀ fault, (s.countFile t text).fresh.counts = .error fault → fault.OfFile) ∧
      ∀ x, (s.countFile t text).fresh.counts = .ok x → x ∈ (s.run t paths).fresh.counted := by
  cases visits with
  | @named given node member found named =>
      have survey := fresh_visit_named (s := s) found named
      have goes := going_visit_of_run going member
      refine ⟨fun fault failed => ?_, fun x counts => ?_⟩
      · refine Classical.not_not.mp fun other => ?_
        rw [survey, FileOutcome.stopped_namedSurvey.mpr ⟨failed, other⟩] at goes
        cases goes
      · refine (mem_counted_run_iff_exists going).mpr ⟨given, member, ?_⟩
        rw [survey, FileOutcome.counted_namedSurvey, counts]
        exact List.mem_singleton_self x
  | @below given access entries place member found visible =>
      have goes := going_visit_of_run going member
      rw [fresh_visit_directory found] at goes
      have ends := (ends_counted_iff_of_openRaw wellFormed (Path.normal_ofText given) found
        opened).mpr visible
      have survey := survey_of_ends_counted (t := t) ends
      have goesOn := going_end wellFormed found goes ends
      rw [survey] at goesOn
      refine ⟨fun fault failed => ?_, fun x counts => ?_⟩
      · refine Classical.not_not.mp fun other => ?_
        rw [FileOutcome.stopped_metSurvey.mpr ⟨failed, other⟩] at goesOn
        cases goesOn
      · refine (mem_counted_run_iff_exists going).mpr ⟨given, member, ?_⟩
        rw [fresh_visit_directory found]
        refine (mem_counted_scan_iff wellFormed found goes).mpr ⟨place, _, ends, ?_⟩
        rw [survey, FileOutcome.counted_metSurvey, counts]
        exact List.mem_singleton_self x

theorem exists_counted_iff (wellFormed : t.WellFormed) {l : Language} :
    (∃ counts, (counts, l) ∈ (s.run t paths).fresh.counted ∧ counts.path = text) ↔
      s.Visits t paths text ∧ (s.registry.detectFile t text s.sniff).language = .ok (some l) ∧
        ∃ data, t.openRaw text = .ok data := by
  constructor
  · rintro ⟨counts, member, rfl⟩
    obtain ⟨detected, data, _, opened, _⟩ := genuine_iff.mp (genuine_of_mem_run member)
    exact ⟨visits_of_mem_counted going wellFormed member, detected, data, opened⟩
  · rintro ⟨visits, detected, data, opened⟩
    obtain ⟨blamed, counted⟩ := outcome_of_visits going wellFormed visits opened
    cases makes : Classifier.make l with
    | ok c =>
        have counts := counts_eq_ok_iff.mpr ⟨detected, data, c, opened, makes, rfl⟩
        exact ⟨_, counted _ counts, rfl⟩
    | error fault =>
        -- Without a classifier for the language the request would have been stopped here.
        have ending := s.counting t text
        cases result : (s.countFile t text).fresh.counts with
        | ok y =>
            obtain ⟨detected', _, _, _, makes', _⟩ := counts_eq_ok_iff.mp result
            cases detected.symm.trans detected'
            cases makes.symm.trans makes'
        | error fault =>
            have ofFile := blamed fault result
            rw [result] at ending
            cases ending with
            | unknown undetected => cases detected.symm.trans undetected
            | unreadable _ refused => cases opened.symm.trans refused
            | undetectable failed => cases detected.symm.trans failed
            | unopenable _ refused _ => cases opened.symm.trans refused
            | unencodable => exact ofFile.elim

theorem unsupported_mem_failures (member : given ∈ paths)
    (found : t.find (Path.ofText given).toText = .ok node) (named : node.isDirectory = false)
    (unknown : (s.registry.detectFile t (Path.ofText given).toText s.sniff).language = .ok none) :
    (given, Text.ofString "unsupported language") ∈ (s.run t paths).fresh.failures := by
  apply mem_failures_run_of_visit going member
  have counts : (s.countFile t (Path.ofText given).toText).fresh.counts =
      .error (.unsupported (Path.ofText given).toText) := by
    simp only [Work.fresh, countFile, StateT.run, unknown]
  rw [fresh_visit_named found named, FileOutcome.namedSurvey, counts]
  dsimp only
  rw [FileOutcome.failures_noted_append]
  exact List.mem_singleton_self _

end Request

/-- A surveyor goes by the registry that it holds. -/
theorem goesBy_registry (s : Surveyor) : s.GoesBy s.registry where
  counted_iff {t paths made text l} wellFormed kept going := by
    rw [(s.steady_run t paths made kept).1] at going ⊢
    exact exists_counted_iff going wellFormed
  unsupported {t paths made given node} kept going member found named unknown := by
    rw [(s.steady_run t paths made kept).1] at going ⊢
    exact unsupported_mem_failures going member found named unknown

/-! ## The registry that is given -/

variable {package : PatternPackage} {patterns skipHidden sniff mapping : Value}

theorem registry_of_make (accepted : make package r patterns skipHidden sniff mapping = .ok s) :
    s.registry = if r.languages.isEmpty then .standard else r := by
  rw [make] at accepted
  split at accepted
  · cases read : ignoredBy package patterns with
    | error fault =>
        rw [read] at accepted
        cases accepted
    | ok ignores =>
        rw [read] at accepted
        cases accepted
        rfl
  · cases accepted
    rfl

def oneFile : FileTree := [("a.c", .file {} (Text.encode "a;\n"))]

theorem wellFormed_oneFile : oneFile.WellFormed := by
  refine .directory _ _ (by decide) (by decide) ?_
  simp [oneFile, Node.WellFormed.file]

/-- A surveyor with the standard registry counts the file of C, however else it is set up. -/
theorem run_oneFile (standard : s.registry = .standard) :
    (s.run oneFile ["a.c"]).fresh.stopped = none ∧
      ∃ x, x ∈ (s.run oneFile ["a.c"]).fresh.counted := by
  have found : oneFile.find (Path.ofText "a.c").toText = .ok (.file {} (Text.encode "a;\n")) := by
    cbv
  have opened : oneFile.openRaw (Path.ofText "a.c").toText = .ok (Text.encode "a;\n") := by
    cbv
  obtain ⟨l, detected, c, makes⟩ : ∃ l,
      (s.registry.detectFile oneFile (Path.ofText "a.c").toText s.sniff).language =
        .ok (some l) ∧ ∃ c, Classifier.make l = .ok c := by
    rw [standard]
    exact ⟨Language.withSlashComments 0 "C" [".c", ".h"], rfl, _, rfl⟩
  have counts := counts_eq_ok_iff.mpr ⟨detected, _, c, opened, makes, rfl⟩
  have visited : (s.run oneFile ["a.c"]).fresh =
      (s.countFile oneFile (Path.ofText "a.c").toText).fresh.namedSurvey
        (Path.ofText "a.c").toText "a.c" := by
    simp [fresh_run, fresh_visit_named found rfl]
  rw [visited]
  refine ⟨?_, (c.count (Path.ofText "a.c").toText (Text.encode "a;\n"), l), ?_⟩
  · rw [FileOutcome.namedSurvey, counts]
    rfl
  · rw [FileOutcome.counted_namedSurvey, counts]
    exact List.mem_singleton_self _

/-- A surveyor goes by the registry that it was given exactly if there is a language in it. -/
theorem goesBy_iff_of_make (accepted : make package r patterns skipHidden sniff mapping = .ok s) :
    s.GoesBy r ↔ r.languages ≠ [] := by
  have held := registry_of_make accepted
  constructor
  · intro goes empty
    rw [empty] at held
    have kept := Classifiers.of_nil s.registry
    obtain ⟨going, x, counted⟩ := run_oneFile held
    have known := goes.mem_languages wellFormed_oneFile kept going counted
    rw [empty] at known
    cases known
  · intro nonempty
    have same : s.registry = r := by
      rw [held, if_neg (by simpa using nonempty)]
    exact same ▸ s.goesBy_registry

theorem goesBy_iff_of_make_python :
    ∃ r s, Registry.ofLanguages [.python] = .ok r ∧
      make .standard r (.list []) (.bool true) (.int 4096) (.bool true) = .ok s ∧ s.GoesBy r := by
  obtain ⟨r, registered, known⟩ : ∃ r, Registry.ofLanguages [.python] = .ok r ∧
      r.languages ≠ [] := ⟨_, rfl, by decide⟩
  obtain ⟨s, accepted⟩ :
      ∃ s, make .standard r (.list []) (.bool true) (.int 4096) (.bool true) = .ok s :=
    ⟨_, rfl⟩
  exact ⟨r, s, registered, accepted, (goesBy_iff_of_make accepted).mpr known⟩

/-- With a registry of no languages, a file is counted in a language that the registry does not
have. -/
theorem counted_without_languages :
    ∃ r s, Registry.ofLanguages [] = .ok r ∧
      make .standard r (.list []) (.bool true) (.int 4096) (.bool true) = .ok s ∧
      (r.detectFile oneFile "a.c" s.sniff).language = .ok none ∧
      (s.run oneFile ["a.c"]).fresh.stopped = none ∧
      (∃ x ∈ (s.run oneFile ["a.c"]).fresh.counted, x.2 ∉ r.languages) ∧ ¬ s.GoesBy r := by
  refine ⟨.empty, _, rfl, rfl, rfl, ?_⟩
  obtain ⟨going, x, counted⟩ :=
    run_oneFile (s := { registry := .standard, ignores := fun _ => false }) rfl
  refine ⟨going, ⟨x, counted, by simp [Registry.empty]⟩, fun goes => ?_⟩
  have known := goes.mem_languages wellFormed_oneFile (Classifiers.of_nil _) going counted
  cases known

end Bytewise.Surveyor

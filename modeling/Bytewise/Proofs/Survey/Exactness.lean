import Bytewise.Proofs.Classifier.Markers
import Bytewise.Proofs.Survey.Reach

/-!
# Which files the survey of a directory counts

The survey of a directory counts its files in the order of their places, each of them once, and
which files these are is a matter of the tree: a file is `Surveyor.Countable` if it is visible, its
language is detected and its content can be read. Every countable file is counted, unless the survey
is stopped before it comes to it. A survey is stopped by the first file that is `Surveyor.Halting`:
one whose language is known and has a marker outside ASCII, or a header whose beginning is asked for
in a size that no read takes.
-/

namespace Bytewise

theorem Classifier.exists_make_iff {l : Language} :
    (∃ c, Classifier.make l = .ok c) ↔ l.AsciiMarkers := by
  rw [← Language.exists_markers_iff]
  constructor
  · rintro ⟨c, makes⟩
    exact ⟨c.markers, Classifier.language_of_make makes ▸ c.markers_eq⟩
  · rintro ⟨markers, encoded⟩
    exact ⟨_, Classifier.make_language ⟨l, markers, encoded⟩⟩

/-- What is taken of a list in order until the first element fails a test: all that stand before
every element that fails it. -/
theorem mem_takeWhile_iff_of_pairwise {α : Type} {R : α → α → Prop} {l : List α} {p : α → Bool}
    (ordered : l.Pairwise R) (asymm : ∀ x y, R x y → ¬ R y x) {x : α} :
    x ∈ l.takeWhile p ↔ x ∈ l ∧ ∀ y ∈ l, p y = false → R x y := by
  induction ordered with
  | nil => simp
  | @cons first rest before _ ih =>
      rw [List.forall_mem_cons, List.mem_cons]
      cases passes : p first with
      | false =>
          rw [List.takeWhile_cons_of_neg (by simp [passes])]
          constructor
          · intro member
            cases member
          · rintro ⟨rfl | later, beforeFirst, _⟩
            · exact absurd (beforeFirst rfl) (asymm _ _ (beforeFirst rfl))
            · exact absurd (before x later) (asymm _ _ (beforeFirst rfl))
      | true =>
          rw [List.takeWhile_cons_of_pos passes, List.mem_cons, ih]
          constructor
          · rintro (rfl | ⟨later, beforeAll⟩)
            · exact ⟨.inl rfl, nofun, fun y member _ => before y member⟩
            · exact ⟨.inr later, nofun, beforeAll⟩
          · rintro ⟨rfl | later, _, beforeAll⟩
            · exact .inl rfl
            · exact .inr ⟨later, beforeAll⟩

namespace Surveyor

variable {s : Surveyor} {t : FileTree} {root : Path} {node : Node} {place : List Text}
  {text : Text} {access : Access} {entries : List (Text × Node)} {data : Bytes}

/-! ## Countable and halting files -/

/-- A file below a directory that is visible, of a language that is detected, and can be read. -/
structure Countable (s : Surveyor) (t : FileTree) (root : Path) (node : Node)
    (place : List Text) : Prop where
  visible : s.Visible [] node place
  detected : ∃ l,
    (s.registry.detectFile t (root.below place).toText s.sniff).language = .ok (some l)
  readable : ∃ data, t.openRaw (root.below place).toText = .ok data

/-- The language of a file cannot be told, or cannot be compared with bytes. -/
def Confounds (s : Surveyor) (t : FileTree) (text : Text) : Prop :=
  (∃ fault, (s.registry.detectFile t text s.sniff).language = .error fault) ∨
    ∃ l, (s.registry.detectFile t text s.sniff).language = .ok (some l) ∧ ¬ l.AsciiMarkers

/-- A file below a directory that stops a survey. -/
structure Halting (s : Surveyor) (t : FileTree) (root : Path) (node : Node)
    (place : List Text) : Prop where
  visible : s.Visible [] node place
  readable : ∃ data, t.openRaw (root.below place).toText = .ok data
  confounds : s.Confounds t (root.below place).toText

/-- A file that is met is counted exactly if its language is detected, it can be read, and nothing
is wrong with the language. -/
theorem counted_metSurvey_ne_nil_iff :
    ((s.countFile t text).fresh.metSurvey text).counted ≠ [] ↔
      (∃ l, (s.registry.detectFile t text s.sniff).language = .ok (some l)) ∧
        (∃ data, t.openRaw text = .ok data) ∧ ¬ s.Confounds t text := by
  have counts : ((s.countFile t text).fresh.metSurvey text).counted ≠ [] ↔
      ∃ counted, (s.countFile t text).fresh.counts = .ok counted := by
    rw [FileOutcome.counted_metSurvey]
    cases (s.countFile t text).fresh.counts <;> simp [Except.toOption]
  rw [counts]
  constructor
  · rintro ⟨⟨counts, l⟩, result⟩
    obtain ⟨detected, data, c, opened, makes, _⟩ := counts_eq_ok_iff.mp result
    refine ⟨⟨l, detected⟩, ⟨data, opened⟩, ?_⟩
    rintro (⟨fault, failed⟩ | ⟨l', detected', odd⟩)
    · cases detected.symm.trans failed
    · cases detected.symm.trans detected'
      exact odd (Classifier.exists_make_iff.mp ⟨c, makes⟩)
  · rintro ⟨⟨l, detected⟩, ⟨data, opened⟩, fit⟩
    have ascii : l.AsciiMarkers := Classical.not_not.mp fun odd => fit (.inr ⟨l, detected, odd⟩)
    obtain ⟨c, makes⟩ := Classifier.exists_make_iff.mpr ascii
    exact ⟨(_, l), counts_eq_ok_iff.mpr ⟨detected, data, c, opened, makes, rfl⟩⟩

/-- A regular file that is met stops the survey exactly if it can be read and its language is not
fit for use. -/
theorem stopped_metSurvey_isSome_iff (found : t.find text = .ok (.file access data)) :
    ((s.countFile t text).fresh.metSurvey text).stopped.isSome ↔
      (∃ data, t.openRaw text = .ok data) ∧ s.Confounds t text := by
  have stops : ((s.countFile t text).fresh.metSurvey text).stopped.isSome ↔
      ∃ fault, (s.countFile t text).fresh.counts = .error fault ∧ ¬ fault.OfFile := by
    simp only [Option.isSome_iff_exists, FileOutcome.stopped_metSurvey]
  rw [stops]
  have ending := s.counting t text
  generalize (s.countFile t text).fresh.counts = result at ending ⊢
  constructor
  · rintro ⟨fault, rfl, other⟩
    cases ending with
    | unknown => exact absurd trivial other
    | unreadable => exact absurd trivial other
    | unopenable _ refused system =>
        exact absurd refused (FileTree.openRaw_ne_error_of_find found system)
    | undetectable failed =>
        -- The file is there, so detection opened it and failed at reading its beginning.
        have how := s.registry.detects t text s.sniff
        rw [failed] at how
        cases how with
        | unopened _ refused system =>
            exact absurd refused (FileTree.openRaw_ne_error_of_find found system)
        | unread _ opened _ => exact ⟨⟨_, opened⟩, .inl ⟨_, failed⟩⟩
    | unencodable detected opened fails =>
        refine ⟨⟨_, opened⟩, .inr ⟨_, detected, fun ascii => ?_⟩⟩
        obtain ⟨c, makes⟩ := Classifier.exists_make_iff.mpr ascii
        cases makes.symm.trans fails
  · rintro ⟨⟨data, opened⟩, confounds⟩
    cases ending with
    | counted detected _ makes =>
        obtain ⟨_, failed⟩ | ⟨_, detected', odd⟩ := confounds
        · cases detected.symm.trans failed
        · cases detected.symm.trans detected'
          exact absurd (Classifier.exists_make_iff.mp ⟨_, makes⟩) odd
    | unknown undetected =>
        obtain ⟨_, failed⟩ | ⟨_, detected', _⟩ := confounds
        · cases undetected.symm.trans failed
        · cases undetected.symm.trans detected'
    | unreadable _ refused => cases opened.symm.trans refused
    | unopenable _ refused _ => cases opened.symm.trans refused
    | undetectable failed => exact ⟨_, rfl, Registry.not_ofFile_of_detectFile failed⟩
    | unencodable => exact ⟨_, rfl, id⟩

/-- A surveyor that no file can stop: every language it knows can be compared with bytes, and the
beginning of a header is asked for in a size that files take. -/
structure Sound (s : Surveyor) : Prop where
  ascii : ∀ l ∈ s.registry.languages, l.AsciiMarkers
  sniff_taken : ∀ data, (Stream.ofFile data).refusal? s.sniff = none

theorem Sound.not_confounds (sound : s.Sound) (found : t.find text = .ok node) :
    ¬ s.Confounds t text := by
  rintro (⟨fault, failed⟩ | ⟨l, detected, odd⟩)
  · have how := s.registry.detects t text s.sniff
    rw [failed] at how
    cases how with
    | unopened _ refused system =>
        exact FileTree.openRaw_ne_error_of_find found system refused
    | unread _ _ refused =>
        cases (sound.sniff_taken _).symm.trans (Stream.refusal?_of_read_error refused)
  · exact odd (sound.ascii l (s.registry.mem_of_detectFile detected))

/-- Counting a file fails only by faults of the file. -/
theorem Sound.ofFile_of_error (sound : s.Sound) (found : t.find text = .ok node) {fault : Fault}
    (failed : (s.countFile t text).fresh.counts = .error fault) : fault.OfFile := by
  have ending := s.counting t text
  rw [failed] at ending
  cases ending with
  | unknown => trivial
  | unreadable => trivial
  | undetectable failed => exact absurd (.inl ⟨_, failed⟩) (sound.not_confounds found)
  | unopenable _ refused system =>
      exact absurd refused (FileTree.openRaw_ne_error_of_find found system)
  | unencodable detected _ fails =>
      obtain ⟨c, makes⟩ := Classifier.exists_make_iff.mpr
        (sound.ascii _ (s.registry.mem_of_detectFile detected))
      cases makes.symm.trans fails

theorem Sound.not_halting (sound : s.Sound) : ¬ s.Halting t root node place := by
  rintro ⟨_, ⟨data, opened⟩, confounds⟩
  rw [FileTree.openRaw] at opened
  split at opened
  · cases opened
  · next located => exact sound.not_confounds located confounds

/-! ## The survey of a directory -/

theorem survey_of_ends_counted
    (ends : s.Ends root [] (.directory access entries) place (.met .counted)) :
    (Ending.met .counted).survey s t (root.below place) =
      (s.countFile t (root.below place).toText).fresh.metSurvey (root.below place).toText := by
  apply Ending.survey_counted
  intro empty
  have nowhere : place = [] := (List.append_eq_nil_iff.mp empty).2
  subst nowhere
  cases ends

/-- What is counted at the end of a branch is counted under the path of the place. -/
theorem counted_end {ending : Ending}
    (ends : s.Ends root [] (.directory access entries) place ending) :
    (ending.survey s t (root.below place)).counted = [] ∨
      ∃ x, (ending.survey s t (root.below place)).counted = [x] ∧
        x.1.path = (root.below place).toText := by
  by_cases counted : ending = .met .counted
  · subst counted
    rw [survey_of_ends_counted ends, FileOutcome.counted_metSurvey]
    cases result : (s.countFile t (root.below place).toText).fresh.counts with
    | error fault => exact .inl rfl
    | ok x =>
        obtain ⟨_, _, _, _, _, counts⟩ := counts_eq_ok_iff.mp result
        exact .inr ⟨x, rfl, by rw [counts]; rfl⟩
  · exact .inl (Ending.counted_survey_of_ne counted)

section Scan

variable (wellFormed : t.WellFormed) (normal : root.Normal)
  (found : t.find root.toText = .ok (.directory access entries))
include wellFormed normal found

/-- Files that can be read are found at the ends of the walk exactly if they are visible. -/
theorem ends_counted_iff_of_openRaw (opened : t.openRaw (root.below place).toText = .ok data) :
    s.Ends root [] (.directory access entries) place (.met .counted) ↔
      s.Visible [] (.directory access entries) place := by
  have inner := FileTree.wellFormed_of_find wellFormed found
  refine ⟨fun ends => (ends.visible inner).1, fun visible => visible.ends inner ?_⟩
  have short : (root.below place).toText.encode.length ≤ FileTree.nameLimit := by
    rw [FileTree.openRaw] at opened
    split at opened
    · cases opened
    · next located => exact (FileTree.find_eq_ok_iff.mp located).2.2.2.1
  exact visible.fits_of_length_le inner normal (FileTree.relative_of_find found) short

/-- A file counted at the end of a branch is a regular file under its path. -/
theorem find_of_ends_counted
    (ends : s.Ends root [] (.directory access entries) place (.met .counted)) :
    ∃ access data, t.find (root.below place).toText = .ok (.file access data) := by
  have inner := FileTree.wellFormed_of_find wellFormed found
  obtain ⟨visible, fits⟩ := ends.visible inner
  exact visible.find_eq fits inner normal found

/-- The places where something is counted at the end of a branch. -/
theorem exists_counted_end_iff :
    (∃ ending, s.Ends root [] (.directory access entries) place ending ∧
        (ending.survey s t (root.below place)).counted ≠ []) ↔
      s.Countable t root (.directory access entries) place ∧
        ¬ s.Halting t root (.directory access entries) place := by
  constructor
  · rintro ⟨ending, ends, counts⟩
    have counted : ending = .met .counted :=
      Classical.not_not.mp fun other => counts (Ending.counted_survey_of_ne other)
    subst counted
    obtain ⟨visible, _⟩ := ends.visible (FileTree.wellFormed_of_find wellFormed found)
    rw [survey_of_ends_counted ends] at counts
    obtain ⟨detected, readable, fit⟩ := counted_metSurvey_ne_nil_iff.mp counts
    exact ⟨⟨visible, detected, readable⟩, fun halting => fit halting.confounds⟩
  · rintro ⟨⟨visible, detected, data, opened⟩, fit⟩
    have ends := (ends_counted_iff_of_openRaw wellFormed normal found opened).mpr visible
    refine ⟨_, ends, ?_⟩
    rw [survey_of_ends_counted ends]
    exact counted_metSurvey_ne_nil_iff.mpr ⟨detected, ⟨data, opened⟩, fun confounds =>
      fit ⟨visible, ⟨data, opened⟩, confounds⟩⟩

/-- The places where the survey is stopped at the end of a branch. -/
theorem exists_stopped_end_iff :
    (∃ ending, s.Ends root [] (.directory access entries) place ending ∧
        (ending.survey s t (root.below place)).stopped.isSome) ↔
      s.Halting t root (.directory access entries) place := by
  constructor
  · rintro ⟨ending, ends, stops⟩
    have counted : ending = .met .counted := Classical.not_not.mp fun other => by
      rw [Ending.stopped_survey_of_ne other] at stops
      cases stops
    subst counted
    obtain ⟨visible, _⟩ := ends.visible (FileTree.wellFormed_of_find wellFormed found)
    obtain ⟨_, _, located⟩ := find_of_ends_counted wellFormed normal found ends
    rw [survey_of_ends_counted ends, stopped_metSurvey_isSome_iff located] at stops
    exact ⟨visible, stops.1, stops.2⟩
  · rintro ⟨visible, ⟨data, opened⟩, confounds⟩
    have ends := (ends_counted_iff_of_openRaw wellFormed normal found opened).mpr visible
    obtain ⟨_, _, located⟩ := find_of_ends_counted wellFormed normal found ends
    refine ⟨_, ends, ?_⟩
    rw [survey_of_ends_counted ends]
    exact (stopped_metSurvey_isSome_iff located).mpr ⟨⟨data, opened⟩, confounds⟩

end Scan

/-! ## Places counted along a trace -/

/-- The places along a trace where a file is counted, as far as the survey goes. -/
def countedPlaces (s : Surveyor) (t : FileTree) (root : Path) (trace : List (List Text × Ending)) :
    List (List Text) :=
  ((trace.takeWhile fun x => (x.2.survey s t (root.below x.1)).stopped.isNone).filter
    fun x => !(x.2.survey s t (root.below x.1)).counted.isEmpty).map Prod.fst

variable {trace : List (List Text × Ending)}

/-- A file that stops the survey is not counted. -/
theorem counted_end_of_stopped {ending : Ending}
    (ends : s.Ends root [] (.directory access entries) place ending)
    (stops : (ending.survey s t (root.below place)).stopped.isSome) :
    (ending.survey s t (root.below place)).counted = [] := by
  by_cases counted : ending = .met .counted
  · subst counted
    rw [survey_of_ends_counted ends] at stops ⊢
    obtain ⟨fault, stopped⟩ := Option.isSome_iff_exists.mp stops
    rw [FileOutcome.counted_metSurvey, (FileOutcome.stopped_metSurvey.mp stopped).1]
    rfl
  · exact Ending.counted_survey_of_ne counted

theorem files_join_trace
    (ends : ∀ x ∈ trace, s.Ends root [] (.directory access entries) x.1 x.2) :
    (Survey.join (trace.map fun x => x.2.survey s t (root.below x.1))).files.map FileCounts.path =
      (s.countedPlaces t root trace).map fun place => (root.below place).toText := by
  have idle : ∀ u ∈ trace.map fun x => x.2.survey s t (root.below x.1),
      u.stopped.isSome → u.counted = [] :=
    List.forall_mem_map.mpr fun x member => counted_end_of_stopped (ends x member)
  rw [Survey.files_eq, Survey.counted_join idle, List.takeWhile_map, List.flatMap_map,
    countedPlaces]
  simp only [Function.comp_def, List.map_flatMap, List.map_map]
  -- From here on only the ends up to the first stop matter.
  have ends : ∀ x ∈ trace.takeWhile fun x => (x.2.survey s t (root.below x.1)).stopped.isNone,
      s.Ends root [] (.directory access entries) x.1 x.2 := fun x member =>
    ends x ((List.takeWhile_sublist _).mem member)
  generalize (trace.takeWhile _) = reached at ends ⊢
  induction reached with
  | nil => rfl
  | cons x rest ih =>
      rw [List.forall_mem_cons] at ends
      obtain nothing | ⟨y, counts, same⟩ := counted_end (t := t) ends.1
      · simp [nothing, ih ends.2]
      · simp [counts, same, ih ends.2]

theorem mem_countedPlaces_iff (ordered : trace.Pairwise fun x y => PlaceBefore x.1 y.1) :
    place ∈ s.countedPlaces t root trace ↔
      (∃ ending, (place, ending) ∈ trace ∧
        (ending.survey s t (root.below place)).counted ≠ []) ∧
      ∀ x ∈ trace, (x.2.survey s t (root.below x.1)).stopped.isSome → PlaceBefore place x.1 := by
  have asymm (x y : List Text × Ending) (before : PlaceBefore x.1 y.1) : ¬ PlaceBefore y.1 x.1 :=
    fun after => PlaceBefore.irrefl _ (before.trans after)
  simp only [countedPlaces, List.mem_map, List.mem_filter,
    mem_takeWhile_iff_of_pairwise ordered asymm, Prod.exists, Bool.not_eq_true',
    List.isEmpty_eq_false_iff, Option.isNone_eq_false_iff]
  constructor
  · rintro ⟨_, ending, ⟨⟨member, before⟩, counts⟩, rfl⟩
    exact ⟨⟨ending, member, counts⟩, before⟩
  · rintro ⟨⟨ending, member, counts⟩, before⟩
    exact ⟨place, ending, ⟨⟨member, before⟩, counts⟩, rfl⟩

theorem pairwise_countedPlaces (ordered : trace.Pairwise fun x y => PlaceBefore x.1 y.1) :
    (s.countedPlaces t root trace).Pairwise PlaceBefore := by
  refine List.pairwise_map.mpr (ordered.sublist ?_)
  exact List.filter_sublist.trans (List.takeWhile_sublist _)

section Scan

variable (wellFormed : t.WellFormed) (normal : root.Normal)
  (found : t.find root.toText = .ok (.directory access entries))
  (members : ∀ names ending,
    (names, ending) ∈ trace ↔ s.Ends root [] (.directory access entries) names ending)
include wellFormed normal found members

/-- A survey is stopped by the first halting file, so the files counted are the countable ones
before it. -/
theorem mem_countedPlaces_iff_countable (place : List Text)
    (ordered : trace.Pairwise fun x y => PlaceBefore x.1 y.1) :
    place ∈ s.countedPlaces t root trace ↔
      s.Countable t root (.directory access entries) place ∧
        ∀ halting, s.Halting t root (.directory access entries) halting →
          PlaceBefore place halting := by
  have halts : (∀ x ∈ trace, (x.2.survey s t (root.below x.1)).stopped.isSome →
        PlaceBefore place x.1) ↔
      ∀ halting, s.Halting t root (.directory access entries) halting →
        PlaceBefore place halting := by
    simp only [← exists_stopped_end_iff wellFormed normal found, Prod.forall, members]
    exact ⟨fun all halting ⟨ending, ends, stops⟩ => all halting ending ends stops,
      fun all halting ending ends stops => all halting ⟨ending, ends, stops⟩⟩
  rw [mem_countedPlaces_iff ordered, halts]
  simp only [members, exists_counted_end_iff wellFormed normal found]
  constructor
  · rintro ⟨⟨countable, _⟩, before⟩
    exact ⟨countable, before⟩
  · rintro ⟨countable, before⟩
    exact ⟨⟨countable, fun halting => PlaceBefore.irrefl _ (before place halting)⟩, before⟩

theorem stopped_join_trace_iff :
    (Survey.join (trace.map fun x => x.2.survey s t (root.below x.1))).stopped = none ↔
      ∀ place, ¬ s.Halting t root (.directory access entries) place := by
  rw [Survey.stopped_join_eq_none_iff, List.forall_mem_map]
  simp only [← exists_stopped_end_iff wellFormed normal found, Prod.forall, members, not_exists,
    not_and, Option.not_isSome_iff_eq_none]

end Scan

/-- The survey of a directory counts exactly the countable files that come before all halting ones,
in the order of their places and each of them once; it runs to its end exactly if there is no
halting file, and a sound surveyor meets none. -/
theorem scan_counts_exactly {given : Text} {made : Classifiers} (wellFormed : t.WellFormed)
    (kept : made.Of s.registry)
    (found : t.find (Path.ofText given).toText = .ok (.directory access entries)) :
    let root := Path.ofText given
    let directory := Node.directory access entries
    let survey := ((s.scan t root).run made).1
    (∃ places : List (List Text),
      survey.files.map FileCounts.path = places.map (fun place => (root.below place).toText) ∧
        places.Pairwise PlaceBefore ∧ (survey.files.map FileCounts.path).Nodup ∧
        ∀ place, place ∈ places ↔
          s.Countable t root directory place ∧
            ∀ halting, s.Halting t root directory halting → PlaceBefore place halting) ∧
      (survey.stopped = none ↔ ∀ place, ¬ s.Halting t root directory place) ∧
      (s.Sound → ∀ place, ¬ s.Halting t root directory place) := by
  intro root directory survey
  have normal : root.Normal := Path.normal_ofText given
  obtain ⟨trace, joined, ordered, members⟩ := traces_scan (s := s) wellFormed found
  have survey_eq : survey = .join (trace.map fun x => x.2.survey s t (root.below x.1)) :=
    (s.steady_scan t root made kept).1.trans joined
  have paths : survey.files.map FileCounts.path =
      (s.countedPlaces t root trace).map fun place => (root.below place).toText := by
    rw [survey_eq, files_join_trace fun x member => (members x.1 x.2).mp member]
  have mem_places (place : List Text) :=
    mem_countedPlaces_iff_countable wellFormed normal found members place ordered
  have strict : (s.countedPlaces t root trace).Pairwise PlaceBefore :=
    pairwise_countedPlaces ordered
  refine ⟨⟨_, paths, strict, ?_, mem_places⟩, ?_, fun sound place => sound.not_halting⟩
  · -- Places made of names are told apart by the texts of their paths.
    have areNames (place : List Text) (member : place ∈ s.countedPlaces t root trace) :
        ∀ name ∈ place, IsName name := by
      obtain ⟨_, _, regular⟩ := ((mem_places place).mp member).1.visible.regular
      exact (FileTree.wellFormed_of_find wellFormed found).isName_of_at? regular
    rw [paths]
    refine List.pairwise_map.mpr (strict.imp_of_mem fun member member' before same => ?_)
    have equal := normal.place_eq_of_toText_eq (areNames _ member) (areNames _ member') same
    exact PlaceBefore.irrefl _ (equal ▸ before)
  · rw [survey_eq]
    exact stopped_join_trace_iff wellFormed normal found members

/-! ## A file that hides those after it -/

/-- A language with markers outside ASCII. -/
def guillemets : Language :=
  ⟨2, "Guillemets", [".g"], "#", "«", "»", by decide, by decide, by decide, by decide⟩

def withGuillemets : Surveyor where
  registry := {
    languages := [.withSlashComments 0 "C" [".c"], guillemets]
    owners := [(".c", .withSlashComments 0 "C" [".c"]), (".g", guillemets)]
    ids_distinct := by decide
    names_distinct := by decide
    owners_registered := by simp }

/-- A file of that language between two others. -/
def threeFiles : FileTree := [("c.c", .file {} []), ("b.g", .file {} []), ("a.c", .file {} [])]

theorem wellFormed_threeFiles : threeFiles.WellFormed := by
  refine .directory _ _ (by decide) (by decide) ?_
  simp [threeFiles, Node.WellFormed.file]

theorem visible_threeFiles {name : Text} (member : (name, .file {} []) ∈ threeFiles)
    (shown : withGuillemets.passesOver [] name false = false) :
    withGuillemets.Visible [] (.directory {} threeFiles) [name] :=
  (visible_cons_iff wellFormed_threeFiles).mpr
    ⟨rfl, rfl, shown, _, member, visible_nil_iff.mpr ⟨_, _, rfl⟩⟩

theorem halting_threeFiles :
    withGuillemets.Halting threeFiles (Path.ofText ".") (.directory {} threeFiles)
      [Text.ofString "b.g"] := by
  refine ⟨visible_threeFiles (by simp [threeFiles]) (by decide), ⟨[], by cbv⟩, .inr ?_⟩
  refine ⟨guillemets, by cbv, fun ascii => ?_⟩
  obtain ⟨markers, encoded⟩ := Language.exists_markers_iff.mpr ascii
  cases encoded

theorem scan_counts_exactly_threeFiles :
    threeFiles.WellFormed ∧ Classifiers.Of withGuillemets.registry [] ∧
      threeFiles.find (Path.ofText ".").toText = .ok (.directory {} threeFiles) ∧
      (∃ places : List (List Text),
        ((withGuillemets.scan threeFiles (Path.ofText ".")).run []).1.files.map FileCounts.path =
            places.map (fun place => ((Path.ofText ".").below place).toText) ∧
          places.Pairwise PlaceBefore ∧ [Text.ofString "c.c"] ∉ places) ∧
      ((withGuillemets.scan threeFiles (Path.ofText ".")).run []).1.stopped ≠ none := by
  have found : threeFiles.find (Path.ofText ".").toText = .ok (.directory {} threeFiles) := by cbv
  have kept := Classifiers.of_nil withGuillemets.registry
  obtain ⟨⟨places, paths, ordered, _, members⟩, ends, _⟩ :=
    scan_counts_exactly wellFormed_threeFiles kept found
  refine ⟨wellFormed_threeFiles, kept, found, ⟨places, paths, ordered, fun member => ?_⟩,
    fun going => ends.mp going _ halting_threeFiles⟩
  have names : (Text.ofString "b.g").Before (Text.ofString "c.c") := .rel (by decide)
  have before := ((members _).mp member).2 _ halting_threeFiles
  exact PlaceBefore.irrefl _ (before.trans (.of_name names [] []))

/-- The third file is countable, and the survey counts the first one only. -/
theorem countable_not_counted :
    withGuillemets.Countable threeFiles (Path.ofText ".") (.directory {} threeFiles)
        [Text.ofString "c.c"] ∧
      ((withGuillemets.scan threeFiles (Path.ofText ".")).run []).1.files.map FileCounts.path =
        [Text.ofString "a.c"] := by
  refine ⟨⟨visible_threeFiles (by simp [threeFiles]) (by decide), ?_, ⟨[], by cbv⟩⟩, by cbv⟩
  exact ⟨.withSlashComments 0 "C" [".c"], by cbv⟩

end Surveyor

end Bytewise

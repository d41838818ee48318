import Bytewise.Proofs.Classifier.BlockComments
import Bytewise.Proofs.Survey.Exactness

/-!
# Files that are lost

A file that a walk is after should be counted or show up among the failures, be it under its own
path or under that of a directory above it. A directory that cannot be listed is recorded, and so is
a file that cannot be read. What is not recorded is an entry that the system refuses to say anything
about: if a directory can be listed but not searched, or a name is too long, then whatever is there
is `Lost`. These are the only losses (`run_accounts_iff_not_lost`).
-/

namespace Bytewise

/-- A file below a directory is accounted for by a survey: it was counted, or it is recorded as a
failure, it or a directory above it. -/
def Survey.Accounts (survey : Survey) (root : Path) (place : List Text) : Prop :=
  (∃ counts ∈ survey.files, counts.path = (root.below place).toText) ∨
    ∃ above, above <+: place ∧ ∃ reason, ((root.below above).toText, reason) ∈ survey.failures

namespace Surveyor

variable {s : Surveyor} {t : FileTree} {path root : Path} {relative place rest : List Text}
  {access : Access} {name : Text} {node : Node} {entries : List (Text × Node)}

/-- On the way to a place the system refuses to say what the next name is, and up to there every
directory can be listed. -/
def Lost (path : Path) (node : Node) (place : List Text) : Prop :=
  ∃ above name below, place = above ++ name :: below ∧
    (∀ higher lower, above = higher ++ lower →
      ∃ access entries, node.at? higher = some (.directory access entries) ∧ access.read = true) ∧
    ∃ access entries, node.at? above = some (.directory access entries) ∧
      (refusal? (path.below above) access name).isSome

theorem not_lost_nil (path : Path) (node : Node) : ¬ Lost path node [] := by
  rintro ⟨above, name, below, split, _⟩
  simp at split

theorem lost_cons_iff (wellFormed : (Node.directory access entries).WellFormed)
    (member : (name, node) ∈ entries) :
    Lost path (.directory access entries) (name :: rest) ↔
      access.read = true ∧
        ((refusal? path access name).isSome ∨ Lost (path.child name) node rest) := by
  constructor
  · rintro ⟨above, next, below, split, listed, access', entries', here, refused⟩
    have read : access.read = true := by
      obtain ⟨_, _, same, read⟩ := listed [] above rfl
      cases same
      exact read
    refine ⟨read, ?_⟩
    cases above with
    | nil =>
        cases split
        cases here
        exact .inl (by simpa using refused)
    | cons first above =>
        cases split
        rw [wellFormed.at?_cons member] at here
        refine .inr ⟨above, next, below, rfl, fun higher lower split => ?_,
          access', entries', here, by simpa using refused⟩
        have higherUp := listed (name :: higher) lower (by rw [split, List.cons_append])
        rwa [wellFormed.at?_cons member] at higherUp
  · rintro ⟨read, refused | ⟨above, next, below, rfl, listed, access', entries', here, refused⟩⟩
    · refine ⟨[], name, rest, rfl, fun higher lower split => ?_, access, entries, by simp,
        by simpa using refused⟩
      obtain ⟨rfl, rfl⟩ := List.append_eq_nil_iff.mp split.symm
      exact ⟨access, entries, by simp, read⟩
    · refine ⟨name :: above, next, below, rfl, fun higher lower split => ?_, access', entries',
        by rwa [wellFormed.at?_cons member], by simpa using refused⟩
      cases higher with
      | nil => exact ⟨access, entries, by simp, read⟩
      | cons first higher =>
          cases split
          rw [wellFormed.at?_cons member]
          exact listed higher lower rfl

/-! ## Where the way to a file ends -/

/-- On the way to a file that a walk is after, the walk ends at a name that the system refuses to
say anything about, at a directory that cannot be listed, or at the file. -/
theorem end_of_wanted (path : Path) (wellFormed : (Node.directory access entries).WellFormed)
    (wanted : s.Wanted relative (.directory access entries) place) :
    Lost path (.directory access entries) place ∧
        (∃ above cause, above <+: place ∧
          s.Ends path relative (.directory access entries) above (.met (.unreachable cause))) ∨
      ¬ Lost path (.directory access entries) place ∧
        ((∃ above, above <+: place ∧
            s.Ends path relative (.directory access entries) above .unlisted) ∨
          s.Ends path relative (.directory access entries) place (.met .counted)) := by
  induction place generalizing path relative access entries with
  | nil =>
      obtain ⟨_, _, same⟩ := wanted_nil_iff.mp wanted
      cases same
  | cons name rest ih =>
      obtain ⟨kept, node, member, inside⟩ := (wanted_cons_iff wellFormed).mp wanted
      rw [lost_cons_iff wellFormed member]
      -- The directory is listed before the system is asked about the name.
      cases listed : access.read with
      | false => exact .inr ⟨by simp, .inl ⟨[], List.nil_prefix, .unlisted listed⟩⟩
      | true =>
          cases refused : refusal? path access name with
          | some cause =>
              have ends : s.Ends path relative (.directory access entries) [name]
                  (.met (.unreachable cause)) :=
                .met_of_eq listed member (treatment_of_refused refused) nofun
              exact .inl ⟨⟨rfl, .inl rfl⟩, [name], cause, by simp, ends⟩
          | none =>
              cases rest with
              | nil =>
                  obtain ⟨access', data, rfl⟩ := wanted_nil_iff.mp inside
                  have treated := treatment_eq_counted_iff.mpr ⟨refused, kept, access', data, rfl⟩
                  exact .inr ⟨by simp [not_lost_nil],
                    .inr (.met_of_eq listed member treated nofun)⟩
              | cons next rest =>
                  obtain ⟨access', entries', rfl⟩ := inside.exists_directory
                  have enters :=
                    treatment_eq_entered_iff.mpr ⟨refused, kept, access', entries', rfl⟩
                  have step {above : List Text} {ending : Ending}
                      (ends : s.Ends (path.child name) (relative ++ [name])
                        (.directory access' entries') above ending) :
                      s.Ends path relative (.directory access entries) (name :: above) ending :=
                    .inside listed member enters ends
                  obtain ⟨lost, above, cause, short, ends⟩ | ⟨found, ⟨above, short, ends⟩ | ends⟩ :=
                    ih (path.child name) (wellFormed.inside member) inside
                  · exact .inl ⟨⟨rfl, .inr lost⟩, name :: above, cause,
                      List.cons_prefix_cons.mpr ⟨rfl, short⟩, step ends⟩
                  · exact .inr ⟨by simpa using found, .inl ⟨name :: above,
                      List.cons_prefix_cons.mpr ⟨rfl, short⟩, step ends⟩⟩
                  · exact .inr ⟨by simpa using found, .inr (step ends)⟩

/-- There is one entry on the way to a place. -/
theorem entry_of_prefix {e : Text × Node} {rest' : List Text}
    (wellFormed : (Node.directory access entries).WellFormed) (member : (name, node) ∈ entries)
    (member' : e ∈ entries) (short : name :: rest <+: place) (short' : e.1 :: rest' <+: place) :
    e = (name, node) ∧ ∃ inner, place = name :: inner ∧ rest <+: inner ∧ rest' <+: inner := by
  obtain ⟨more, rfl⟩ := short
  obtain ⟨other, node'⟩ := e
  obtain ⟨rfl, tail⟩ := List.cons_prefix_cons.mp short'
  cases (wellFormed.lookup_eq_some_iff.mpr member).symm.trans
    (wellFormed.lookup_eq_some_iff.mpr member')
  exact ⟨rfl, rest ++ more, rfl, List.prefix_append _ _, tail⟩

/-- A branch of a walk ends once: on the way to a place there is one end only. -/
theorem Ends.unique {above above' : List Text} {ending ending' : Ending}
    (wellFormed : node.WellFormed) (ends : s.Ends path relative node above ending)
    (ends' : s.Ends path relative node above' ending') (short : above <+: place)
    (short' : above' <+: place) : above = above' ∧ ending = ending' := by
  induction ends generalizing above' place with
  | unlisted unlisted =>
      obtain ⟨rfl, rfl⟩ := (ends_unlisted_iff unlisted).mp ends'
      exact ⟨rfl, rfl⟩
  | @met path relative access entries name node listed member stays =>
      obtain ⟨e, member', entry⟩ := (ends_listed_iff listed).mp ends'
      obtain ⟨rest', rfl⟩ := exists_cons_of_entryEnds entry
      obtain ⟨rfl, _⟩ := entry_of_prefix wellFormed member member' short short'
      obtain ⟨same, rfl⟩ := (entryEnds_of_not_entered stays).mp entry
      exact ⟨same.symm, rfl⟩
  | @inside path relative access entries name node rest ending listed member enters _ ih =>
      obtain ⟨e, member', entry⟩ := (ends_listed_iff listed).mp ends'
      obtain ⟨rest', rfl⟩ := exists_cons_of_entryEnds entry
      obtain ⟨rfl, inner, _, short, short'⟩ :=
        entry_of_prefix wellFormed member member' short short'
      obtain ⟨_, same, further⟩ := (entryEnds_of_entered enters).mp entry
      cases same
      obtain ⟨rfl, same⟩ := ih (wellFormed.inside member) further short short'
      exact ⟨rfl, same⟩

/-- The places where a walk ends are made of names. -/
theorem Ends.isName {above : List Text} {ending : Ending} (wellFormed : node.WellFormed)
    (ends : s.Ends path relative node above ending) : ∀ name ∈ above, IsName name := by
  induction ends with
  | unlisted => simp
  | met _ member _ =>
      intro name here
      rw [List.mem_singleton.mp here]
      exact wellFormed.isName member
  | inside _ member _ _ ih =>
      exact List.forall_mem_cons.mpr ⟨wellFormed.isName member, ih (wellFormed.inside member)⟩

/-! ## What the survey of a directory accounts for -/

/-- Failures are recorded under the path of the place where a branch ends, and never for a name that
the system refuses to say anything about. -/
theorem failure_at_end {above : List Text} {ending : Ending} {failure : Text × Text}
    (ends : s.Ends root [] (.directory access entries) above ending)
    (failed : failure ∈ (ending.survey s t (root.below above)).failures) :
    failure.1 = (root.below above).toText ∧ ∀ cause, ending ≠ .met (.unreachable cause) := by
  cases ending with
  | unlisted =>
      rw [Ending.failures_survey_unlisted, List.mem_singleton] at failed
      exact ⟨by rw [failed], nofun⟩
  | met treatment =>
      by_cases counted : treatment = .counted
      · subst counted
        rw [survey_of_ends_counted ends, FileOutcome.mem_failures_metSurvey] at failed
        exact ⟨failed.1, nofun⟩
      · rw [Ending.failures_survey_of_ne counted] at failed
        cases failed

/-- A file whose extension is registered is counted or recorded as a failure, if the survey goes on
after it. -/
theorem counted_or_failed {text : Text}
    (registered : (s.registry.detect (Path.ofText text).extension).isSome)
    (goes : ((s.countFile t text).fresh.metSurvey text).stopped = none) :
    (∃ x ∈ ((s.countFile t text).fresh.metSurvey text).counted, x.1.path = text) ∨
      ∃ reason, (text, reason) ∈ ((s.countFile t text).fresh.metSurvey text).failures := by
  cases result : (s.countFile t text).fresh.counts with
  | ok x =>
      obtain ⟨_, _, _, _, _, counts⟩ := counts_eq_ok_iff.mp result
      refine .inl ⟨x, ?_, by rw [counts]; rfl⟩
      rw [FileOutcome.counted_metSurvey, result]
      exact List.mem_singleton_self x
  | error fault =>
      have ofFile : fault.OfFile := Classical.not_not.mp fun other => by
        cases goes.symm.trans (FileOutcome.stopped_metSurvey.mpr ⟨result, other⟩)
      have ending := s.counting t text
      rw [result] at ending
      cases ending with
      | unknown undetected => exact absurd undetected (Registry.detectFile_ne_none registered)
      | unreadable =>
          exact .inr ⟨_, FileOutcome.mem_failures_metSurvey.mpr ⟨rfl, _, result⟩⟩
      | undetectable failed => exact absurd ofFile (Registry.not_ofFile_of_detectFile failed)
      | unopenable _ refused _ => exact absurd ofFile (FileTree.not_ofFile_of_openRaw refused)
      | unencodable => exact ofFile.elim

section Scan

variable (wellFormed : t.WellFormed)
  (found : t.find root.toText = .ok (.directory access entries))
  (going : (s.scan t root).fresh.stopped = none)
include wellFormed found going

theorem going_end {above : List Text} {ending : Ending}
    (ends : s.Ends root [] (.directory access entries) above ending) :
    (ending.survey s t (root.below above)).stopped = none := by
  obtain ⟨trace, joined, _, members⟩ := traces_scan (s := s) wellFormed found
  rw [joined, Survey.stopped_join_eq_none_iff, List.forall_mem_map] at going
  exact going (above, ending) ((members above ending).mpr ends)

theorem mem_counted_scan_iff {x : FileCounts × Language} :
    x ∈ (s.scan t root).fresh.counted ↔
      ∃ above ending, s.Ends root [] (.directory access entries) above ending ∧
        x ∈ (ending.survey s t (root.below above)).counted := by
  obtain ⟨trace, joined, _, members⟩ := traces_scan (s := s) wellFormed found
  rw [joined] at going ⊢
  rw [Survey.counted_join_of_going going, List.flatMap_map]
  simp only [List.mem_flatMap, Prod.exists, members]

theorem mem_failures_scan_iff {failure : Text × Text} :
    failure ∈ (s.scan t root).fresh.failures ↔
      ∃ above ending, s.Ends root [] (.directory access entries) above ending ∧
        failure ∈ (ending.survey s t (root.below above)).failures := by
  obtain ⟨trace, joined, _, members⟩ := traces_scan (s := s) wellFormed found
  rw [joined] at going ⊢
  rw [Survey.failures_join_of_going going, List.flatMap_map]
  simp only [List.mem_flatMap, Prod.exists, members]

/-- What is accounted for is so because the walk ends at the file, or at a directory above it that
cannot be listed. -/
theorem end_of_accounts (normal : root.Normal)
    (wanted : s.Wanted [] (.directory access entries) place)
    (accounts : (s.scan t root).fresh.Accounts root place) :
    ∃ above ending, above <+: place ∧ s.Ends root [] (.directory access entries) above ending ∧
      ∀ cause, ending ≠ .met (.unreachable cause) := by
  have inner := FileTree.wellFormed_of_find wellFormed found
  obtain ⟨_, _, regular⟩ := wanted.regular
  have areNames := inner.isName_of_at? regular
  obtain ⟨counts, member, same⟩ | ⟨above, short, reason, member⟩ := accounts
  · obtain ⟨x, among, rfl⟩ := Survey.mem_files.mp member
    obtain ⟨above, ending, ends, here⟩ :=
      (mem_counted_scan_iff wellFormed found going).mp among
    have counted : ending = .met .counted := Classical.not_not.mp fun other => by
      rw [Ending.counted_survey_of_ne other] at here
      cases here
    have path : x.1.path = (root.below above).toText := by
      obtain nothing | ⟨y, only, path⟩ := counted_end (t := t) ends
      · rw [nothing] at here
        cases here
      · rw [only, List.mem_singleton] at here
        rw [here, path]
    have placed := normal.place_eq_of_toText_eq (ends.isName inner) areNames
      (path.symm.trans same)
    exact ⟨above, ending, placed ▸ List.prefix_refl _, ends, by rw [counted]; nofun⟩
  · obtain ⟨above', ending, ends, here⟩ :=
      (mem_failures_scan_iff wellFormed found going).mp member
    obtain ⟨path, reachable⟩ := failure_at_end ends here
    have namesAbove : ∀ name ∈ above, IsName name := fun name inside =>
      areNames name (short.mem inside)
    have placed := normal.place_eq_of_toText_eq (ends.isName inner) namesAbove path.symm
    exact ⟨above', ending, placed ▸ short, ends, reachable⟩

theorem accounts_of_unlisted {above : List Text} (short : above <+: place)
    (ends : s.Ends root [] (.directory access entries) above .unlisted) :
    (s.scan t root).fresh.Accounts root place := by
  refine .inr ⟨above, short, SystemFault.denied.reason, ?_⟩
  refine (mem_failures_scan_iff wellFormed found going).mpr ⟨above, .unlisted, ends, ?_⟩
  simp [Ending.failures_survey_unlisted]

theorem accounts_of_counted (normal : root.Normal)
    (registered : (s.registry.detect (root.below place).extension).isSome)
    (ends : s.Ends root [] (.directory access entries) place (.met .counted)) :
    (s.scan t root).fresh.Accounts root place := by
  have inner := FileTree.wellFormed_of_find wellFormed found
  have survey := survey_of_ends_counted (t := t) ends
  have goes := going_end wellFormed found going ends
  have extension : (Path.ofText (root.below place).toText).extension =
      (root.below place).extension := by
    rw [Path.ofText_toText (normal.below (ends.isName inner))]
  rw [survey] at goes
  obtain ⟨x, counted, same⟩ | ⟨reason, failed⟩ := counted_or_failed (extension ▸ registered) goes
  · have member := (mem_counted_scan_iff wellFormed found going).mpr
      ⟨place, _, ends, survey ▸ counted⟩
    exact .inl ⟨x.1, Survey.mem_files.mpr ⟨x, member, rfl⟩, same⟩
  · have member := (mem_failures_scan_iff wellFormed found going).mpr
      ⟨place, _, ends, survey ▸ failed⟩
    exact .inr ⟨place, List.prefix_refl _, reason, member⟩

/-- The survey of a directory accounts for the files that it is after exactly if they are not lost.
-/
theorem scan_accounts_iff (normal : root.Normal)
    (wanted : s.Wanted [] (.directory access entries) place)
    (registered : (s.registry.detect (root.below place).extension).isSome) :
    (s.scan t root).fresh.Accounts root place ↔
      ¬ Lost root (.directory access entries) place := by
  have inner := FileTree.wellFormed_of_find wellFormed found
  obtain ⟨lost, above, cause, short, ends⟩ | ⟨present, ⟨above, short, ends⟩ | ends⟩ :=
    end_of_wanted root inner wanted
  · -- A failure or a count would be a second end on the way to the file.
    refine ⟨fun accounts => ?_, fun present => absurd lost present⟩
    obtain ⟨above', ending, short', ends', reachable⟩ :=
      end_of_accounts wellFormed found going normal wanted accounts
    exact absurd (ends'.unique inner ends short' short).2 (reachable cause)
  · exact ⟨fun _ => present, fun _ => accounts_of_unlisted wellFormed found going short ends⟩
  · exact ⟨fun _ => present, fun _ =>
      accounts_of_counted wellFormed found going normal registered ends⟩

end Scan

/-! ## What a request accounts for -/

/-- A sound surveyor is not stopped by paths that lead somewhere. -/
theorem Sound.going_visit (sound : s.Sound) (wellFormed : t.WellFormed) {given : Text}
    (found : t.find (Path.ofText given).toText = .ok node) :
    (s.visit t given).fresh.stopped = none := by
  cases directory : node.isDirectory with
  | true =>
      obtain ⟨access, entries, rfl⟩ := Node.isDirectory_iff.mp directory
      obtain ⟨trace, joined, _, members⟩ := traces_scan (s := s) wellFormed found
      rw [fresh_visit_directory found, joined]
      exact (stopped_join_trace_iff wellFormed (Path.normal_ofText given) found members).mpr
        fun _ => sound.not_halting
  | false =>
      rw [fresh_visit_named found directory, Option.eq_none_iff_forall_ne_some]
      intro fault stopped
      obtain ⟨failed, other⟩ := FileOutcome.stopped_namedSurvey.mp stopped
      exact other (sound.ofFile_of_error found failed)

end Surveyor

theorem Survey.accounts_join {ss : List Survey} {root : Path} {place : List Text}
    (going : (join ss).stopped = none) {u : Survey} (member : u ∈ ss)
    (accounts : u.Accounts root place) : (join ss).Accounts root place := by
  obtain ⟨counts, counted, same⟩ | ⟨above, short, reason, failed⟩ := accounts
  · refine .inl ⟨counts, ?_, same⟩
    rw [files_join_of_going going]
    exact List.mem_flatMap.mpr ⟨u, member, counted⟩
  · refine .inr ⟨above, short, reason, ?_⟩
    rw [failures_join_of_going going]
    exact List.mem_flatMap.mpr ⟨u, member, failed⟩

namespace Surveyor

variable {s : Surveyor} {t : FileTree} {place : List Text} {access : Access}
  {entries : List (Text × Node)}

/-- Nothing that a request is after is left out of account, except what is lost. -/
theorem run_accounts_iff_not_lost {made : Classifiers} (paths : List Text) {given : Text}
    (wellFormed : t.WellFormed) (kept : made.Of s.registry) (member : given ∈ paths)
    (found : t.find (Path.ofText given).toText = .ok (.directory access entries))
    (wanted : s.Wanted [] (.directory access entries) place)
    (registered : (s.registry.detect ((Path.ofText given).below place).extension).isSome) :
    let root := Path.ofText given
    let lost := Lost root (.directory access entries) place
    let survey := ((s.run t paths).run made).1
    let alone := ((s.run t [given]).run made).1
    (s.Sound → (∀ path ∈ paths, ∃ node, t.find (Path.ofText path).toText = .ok node) →
      survey.stopped = none) ∧
    (survey.stopped = none →
      (alone.Accounts root place ↔ ¬ lost) ∧
      (¬ lost → survey.Accounts root place) ∧
      (¬ lost → survey.ok → ∃ counts ∈ survey.files, counts.path = (root.below place).toText)) := by
  intro root lost survey alone
  have survey_eq : survey = .join (paths.map fun given => (s.visit t given).fresh) :=
    (s.steady_run t paths made kept).1.trans (s.fresh_run t paths)
  have alone_eq : alone = (s.scan t root).fresh := by
    rw [← fresh_visit_directory found]
    refine (s.steady_run t [given] made kept).1.trans ?_
    simp [fresh_run]
  refine ⟨fun sound lead => ?_, fun going => ?_⟩
  · rw [survey_eq, Survey.stopped_join_eq_none_iff, List.forall_mem_map]
    intro path member
    obtain ⟨node, found⟩ := lead path member
    exact sound.going_visit wellFormed found
  · rw [survey_eq] at going
    have visited : (s.scan t root).fresh ∈ paths.map fun given => (s.visit t given).fresh :=
      List.mem_map.mpr ⟨given, member, fresh_visit_directory found⟩
    have goes := Survey.stopped_join_eq_none_iff.mp going _ visited
    have accounts_iff := scan_accounts_iff wellFormed found goes (Path.normal_ofText given) wanted
      registered
    have accounts (present : ¬ lost) : survey.Accounts root place := by
      rw [survey_eq]
      exact Survey.accounts_join going visited (accounts_iff.mpr present)
    refine ⟨by rw [alone_eq]; exact accounts_iff, accounts, fun present ok => ?_⟩
    obtain counted | ⟨_, _, _, failed⟩ := accounts present
    · exact counted
    · rw [Survey.ok, List.isEmpty_iff] at ok
      rw [ok] at failed
      cases failed

/-! ## A directory that can be listed but not searched -/

/-- One file in a directory that cannot be searched, and one in a directory that can. -/
def halfSearchable : FileTree :=
  [("d", .directory { search := false } [("a.c", .file {} [])]),
    ("e", .directory {} [("b.c", .file {} [])])]

theorem sound_standard : standard.Sound where
  ascii l known := by
    apply Language.exists_markers_iff.mp
    obtain rfl | ⟨_, id, name, extensions, rfl⟩ := Language.cases_of_mem_standard known
    · exact ⟨_, Language.markers_python⟩
    · exact ⟨_, Language.markers_withSlashComments id name extensions⟩
  sniff_taken := fun _ => rfl

theorem wellFormed_single {name : Text} (isName : IsName name) (access : Access) :
    (Node.directory access [(name, .file {} [])]).WellFormed := by
  refine .directory _ _ (by simp) (by simpa using isName) ?_
  simp [Node.WellFormed.file]

theorem wellFormed_halfSearchable : halfSearchable.WellFormed := by
  refine .directory _ _ (by decide) (by decide) ?_
  simp only [halfSearchable, List.forall_mem_cons, List.not_mem_nil, false_implies, implies_true,
    and_true]
  exact ⟨wellFormed_single (by decide) _, wellFormed_single (by decide) _⟩

theorem wanted_single {name : Text} (isName : IsName name) (access : Access)
    (shown : standard.passesOver [] name false = false) :
    standard.Wanted [] (.directory access [(name, .file {} [])]) [name] :=
  (wanted_cons_iff (wellFormed_single isName access)).mpr
    ⟨shown, _, List.mem_singleton_self _, wanted_nil_iff.mpr ⟨_, _, rfl⟩⟩

theorem find_halfSearchable :
    halfSearchable.find (Path.ofText "d").toText =
        .ok (.directory { search := false } [("a.c", .file {} [])]) ∧
      halfSearchable.find (Path.ofText "e").toText =
        .ok (.directory {} [("b.c", .file {} [])]) := by
  constructor <;> cbv

/-- All that is left of the first directory is a note. -/
theorem run_halfSearchable :
    ∃ message, (standard.run halfSearchable ["d"]).fresh = .note message := by
  have refused : refusal? (Path.ofText "d") { search := false } "a.c" = some .denied := by decide
  have listed : ({ search := false } : Access).read = true := rfl
  simp only [fresh_run, List.map_cons, List.map_nil, Survey.join, Survey.append_empty,
    fresh_visit_directory find_halfSearchable.1, scan, find_halfSearchable.1,
    fresh_walk_listed listed, sortedEntries, List.mergeSort_singleton, entryWork,
    treatment_of_refused refused, meet]
  exact ⟨_, rfl⟩

theorem run_accounts_iff_not_lost_halfSearchable :
    let survey := ((standard.run halfSearchable ["d", "e"]).run []).1
    halfSearchable.WellFormed ∧ standard.Sound ∧ survey.stopped = none ∧
      Lost (Path.ofText "d") (.directory { search := false } [("a.c", .file {} [])])
        [Text.ofString "a.c"] ∧
      ¬ ((standard.run halfSearchable ["d"]).run []).1.Accounts (Path.ofText "d")
        [Text.ofString "a.c"] ∧
      ¬ Lost (Path.ofText "e") (.directory {} [("b.c", .file {} [])]) [Text.ofString "b.c"] ∧
      survey.Accounts (Path.ofText "e") [Text.ofString "b.c"] := by
  intro survey
  have kept := Classifiers.of_nil standard.registry
  obtain ⟨foundFirst, foundSecond⟩ := find_halfSearchable
  have lost : Lost (Path.ofText "d") (.directory { search := false } [("a.c", .file {} [])])
      [Text.ofString "a.c"] :=
    (lost_cons_iff (wellFormed_single (by decide) _) (List.mem_singleton_self _)).mpr
      ⟨rfl, .inl (by decide)⟩
  have present : ¬ Lost (Path.ofText "e") (.directory {} [("b.c", .file {} [])])
      [Text.ofString "b.c"] := by
    rw [lost_cons_iff (wellFormed_single (by decide) _) (List.mem_singleton_self _)]
    rintro ⟨_, refused | lost⟩
    · exact absurd refused (by decide)
    · exact not_lost_nil _ _ lost
  obtain ⟨goes, first⟩ := run_accounts_iff_not_lost ["d", "e"]
    wellFormed_halfSearchable kept (by simp) foundFirst
    (wanted_single (by decide) _ (by decide)) (by decide)
  obtain ⟨_, second⟩ := run_accounts_iff_not_lost ["d", "e"]
    wellFormed_halfSearchable kept (by simp) foundSecond
    (wanted_single (by decide) _ (by decide)) (by decide)
  have going : survey.stopped = none := goes sound_standard (by simp [foundFirst, foundSecond])
  exact ⟨wellFormed_halfSearchable, sound_standard, going, lost,
    fun accounts => (first going).1.mp accounts lost, present, (second going).2.1 present⟩

/-- The survey is well without a file that it is after. -/
theorem wanted_and_neither_counted_nor_failed :
    halfSearchable.WellFormed ∧
      standard.Wanted [] (.directory { search := false } [("a.c", .file {} [])])
        [Text.ofString "a.c"] ∧
      (standard.registry.detect ((Path.ofText "d").below [Text.ofString "a.c"]).extension).isSome ∧
      ((standard.run halfSearchable ["d"]).run []).1.stopped = none ∧
      ((standard.run halfSearchable ["d"]).run []).1.ok = true ∧
      ((standard.run halfSearchable ["d"]).run []).1.files = [] := by
  obtain ⟨message, survey⟩ := run_halfSearchable
  rw [Work.fresh] at survey
  rw [survey]
  exact ⟨wellFormed_halfSearchable, wanted_single (by decide) _ (by decide), by decide, rfl, rfl,
    rfl⟩

end Surveyor

end Bytewise

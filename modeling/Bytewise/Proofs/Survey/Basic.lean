import Bytewise.Survey.Basic

/-!
# Surveys in order

Putting one survey after another is associative, and the empty survey is its unit. A survey that was
stopped takes in nothing of what would have come after it, so what a list of surveys joins to is
what is found up to the first that was stopped (`Survey.counted_join`); if none was, it is
everything.

What a survey has come to accounts for the events so far (`SurveyResult.Accounts`): each event keeps
the totals, the files and the failures in step with one another, so they are in step in the end.
-/

namespace Bytewise

/-! ## What a survey comes to -/

/-- The totals, the files and the failures are those of the same events. -/
structure SurveyResult.Accounts (r : SurveyResult) (events : List SurveyEvent) : Prop where
  aggregate : r.aggregate = (events.filterMap SurveyEvent.counted?).foldl Aggregate.addFile []
  files : r.files = (events.filterMap SurveyEvent.counted?).map Prod.fst
  failed : r.failed = events.filterMap SurveyEvent.failed?

theorem SurveyResult.Accounts.record {r : SurveyResult} {events : List SurveyEvent}
    (accounts : r.Accounts events) (event : SurveyEvent) :
    (r.record event).Accounts (events ++ [event]) := by
  obtain ⟨aggregate, files, failed⟩ := accounts
  cases event with
  | counted counts language =>
      constructor <;>
        simp [SurveyResult.record, SurveyEvent.counted?, SurveyEvent.failed?, aggregate, files,
          failed]
  | failed path reason =>
      constructor <;>
        simp [SurveyResult.record, List.filterMap_cons, SurveyEvent.counted?, SurveyEvent.failed?,
          aggregate, files, failed]
  | noted record =>
      constructor <;>
        simp [SurveyResult.record, List.filterMap_cons, SurveyEvent.counted?, SurveyEvent.failed?,
          aggregate, files, failed]

namespace Survey

variable {s u : Survey} {ss : List Survey}

theorem accounts_foldl {r : SurveyResult} {before : List SurveyEvent} (accounts : r.Accounts before)
    (events : List SurveyEvent) :
    (events.foldl SurveyResult.record r).Accounts (before ++ events) := by
  induction events generalizing r before with
  | nil => simpa using accounts
  | cons event rest ih => simpa using ih (accounts.record event)

theorem accounts_result (s : Survey) : s.result.Accounts s.events := by
  have empty : SurveyResult.Accounts {} [] := ⟨rfl, rfl, rfl⟩
  exact accounts_foldl empty s.events

/-- The totals are those of the files, taken in one after the other. -/
theorem aggregate_eq (s : Survey) : s.aggregate = s.counted.foldl Aggregate.addFile [] :=
  s.accounts_result.aggregate

theorem files_eq (s : Survey) : s.files = s.counted.map Prod.fst := s.accounts_result.files

theorem mem_files {counts : FileCounts} : counts ∈ s.files ↔ ∃ x ∈ s.counted, x.1 = counts := by
  rw [files_eq, List.mem_map]

theorem failures_eq (s : Survey) : s.failures = s.events.filterMap SurveyEvent.failed? :=
  s.accounts_result.failed

/-! ## One survey after another -/

theorem append_of_stopped (stopped : s.stopped.isSome) (u : Survey) : s ++ u = s := if_pos stopped

theorem append_of_going (going : s.stopped = none) (u : Survey) :
    s ++ u = ⟨s.events ++ u.events, u.stopped⟩ := if_neg (by simp [going])

@[simp] theorem empty_append (s : Survey) : ({} : Survey) ++ s = s := rfl

@[simp] theorem append_empty (s : Survey) : s ++ ({} : Survey) = s := by
  obtain ⟨events, _ | fault⟩ := s
  · simp [append_of_going]
  · exact append_of_stopped rfl _

theorem append_assoc (s u v : Survey) : s ++ u ++ v = s ++ (u ++ v) := by
  obtain ⟨events, _ | fault⟩ := s
  · obtain ⟨events', _ | fault'⟩ := u
    · simp [append_of_going]
    · simp [append_of_going, append_of_stopped]
  · simp only [append_of_stopped (s := ⟨events, some fault⟩) rfl]

@[simp] theorem stopped_append (s u : Survey) : (s ++ u).stopped = s.stopped.or u.stopped := by
  obtain ⟨events, _ | fault⟩ := s
  · simp [append_of_going]
  · simp [append_of_stopped]

theorem counted_append_of_going (going : s.stopped = none) (u : Survey) :
    (s ++ u).counted = s.counted ++ u.counted := by
  simp [append_of_going going, counted]

theorem files_append_of_going (going : s.stopped = none) (u : Survey) :
    (s ++ u).files = s.files ++ u.files := by
  rw [files_eq, counted_append_of_going going, List.map_append, ← files_eq, ← files_eq]

theorem failures_append_of_going (going : s.stopped = none) (u : Survey) :
    (s ++ u).failures = s.failures ++ u.failures := by
  simp [append_of_going going, failures_eq]

theorem mem_counted_append {x : FileCounts × Language} (member : x ∈ (s ++ u).counted) :
    x ∈ s.counted ∨ x ∈ u.counted := by
  cases going : s.stopped with
  | none => rwa [counted_append_of_going going, List.mem_append] at member
  | some fault =>
      rw [append_of_stopped (by rw [going]; rfl)] at member
      exact .inl member

/-! ## Lists of surveys -/

def join : List Survey → Survey
  | [] => {}
  | s :: rest => s ++ join rest

@[simp] theorem join_nil : join [] = {} := rfl

@[simp] theorem join_cons (s : Survey) (ss : List Survey) : join (s :: ss) = s ++ join ss := rfl

theorem join_append (ss us : List Survey) : join (ss ++ us) = join ss ++ join us := by
  induction ss with
  | nil => simp
  | cons s ss ih => rw [List.cons_append, join_cons, join_cons, ih, append_assoc]

theorem stopped_join_eq_none_iff : (join ss).stopped = none ↔ ∀ s ∈ ss, s.stopped = none := by
  induction ss with
  | nil => simp
  | cons s ss ih => simp [Option.or_eq_none_iff, ih]

theorem mem_counted_join {x : FileCounts × Language} (member : x ∈ (join ss).counted) :
    ∃ s ∈ ss, x ∈ s.counted := by
  induction ss with
  | nil => cases member
  | cons s ss ih =>
      obtain here | later := mem_counted_append member
      · exact ⟨s, List.mem_cons_self, here⟩
      · obtain ⟨u, among, inside⟩ := ih later
        exact ⟨u, List.mem_cons_of_mem _ among, inside⟩

/-- What was counted up to the first survey that was stopped, which counted nothing itself. -/
theorem counted_join (idle : ∀ s ∈ ss, s.stopped.isSome → s.counted = []) :
    (join ss).counted = (ss.takeWhile (·.stopped.isNone)).flatMap counted := by
  induction ss with
  | nil => rfl
  | cons s ss ih =>
      rw [List.forall_mem_cons] at idle
      cases going : s.stopped with
      | none =>
          rw [join_cons, counted_append_of_going going, ih idle.2]
          simp [going]
      | some fault =>
          have stopped : s.stopped.isSome := by rw [going]; rfl
          rw [join_cons, append_of_stopped stopped, idle.1 stopped]
          simp [going]

theorem counted_join_of_going (going : (join ss).stopped = none) :
    (join ss).counted = ss.flatMap counted := by
  rw [stopped_join_eq_none_iff] at going
  induction ss with
  | nil => rfl
  | cons s ss ih =>
      rw [List.forall_mem_cons] at going
      rw [join_cons, counted_append_of_going going.1, ih going.2, List.flatMap_cons]

theorem files_join_of_going (going : (join ss).stopped = none) :
    (join ss).files = ss.flatMap files := by
  rw [files_eq, counted_join_of_going going, List.map_flatMap]
  exact congrArg (ss.flatMap ·) (funext fun s => s.files_eq.symm)

theorem failures_join_of_going (going : (join ss).stopped = none) :
    (join ss).failures = ss.flatMap failures := by
  rw [stopped_join_eq_none_iff] at going
  induction ss with
  | nil => rfl
  | cons s ss ih =>
      rw [List.forall_mem_cons] at going
      rw [join_cons, failures_append_of_going going.1, ih going.2, List.flatMap_cons]

/-! ## Surveys in another order -/

variable {us : List Survey}

theorem stopped_join_perm (perm : ss.Perm us) :
    (join ss).stopped = none ↔ (join us).stopped = none := by
  simp only [stopped_join_eq_none_iff, perm.mem_iff]

theorem counted_join_perm (perm : ss.Perm us) (going : (join ss).stopped = none) :
    (join ss).counted.Perm (join us).counted := by
  rw [counted_join_of_going going, counted_join_of_going ((stopped_join_perm perm).mp going)]
  exact perm.flatMap_right counted

theorem failures_join_perm (perm : ss.Perm us) (going : (join ss).stopped = none) :
    (join ss).failures.Perm (join us).failures := by
  rw [failures_join_of_going going, failures_join_of_going ((stopped_join_perm perm).mp going)]
  exact perm.flatMap_right failures

end Survey

end Bytewise

import Bytewise.Proofs.Source.Registration
import Bytewise.Proofs.Survey.Totals

/-!
# Requests one after another

A surveyor serves many requests, and between them its registry may gain languages. What it keeps
from one to the next are the classifiers it has made, and those are always of registered languages:
a new language never takes an identifier that is in use (`Standing.kept_after`). So a request comes
to what it would come to if it were the first (`Standing.result_eq_fresh`).

A request is the requests for its parts put together, whatever the order of the parts: another order
gives the same files and failures in another order, and the same totals.
-/

namespace Bytewise

/-! ## What is kept between requests -/

structure Standing where
  surveyor : Surveyor
  made : Classifiers := []

/-- What can be asked of a surveyor. The files need not be the same each time. -/
inductive Call where
  | countFile (t : FileTree) (path : Text)
  | scan (t : FileTree) (path : Path)
  | run (t : FileTree) (paths : List Text)
  | register (l : Language)

namespace Standing

def after (w : Standing) : Call → Standing
  | .countFile t path => { w with made := ((w.surveyor.countFile t path).run w.made).2 }
  | .scan t path => { w with made := ((w.surveyor.scan t path).run w.made).2 }
  | .run t paths => { w with made := ((w.surveyor.run t paths).run w.made).2 }
  | .register l =>
    { w with surveyor := { w.surveyor with registry := (w.surveyor.registry.attempt l).1 } }

/-- The classifiers kept are those of registered languages. -/
def Kept (w : Standing) : Prop := w.made.Of w.surveyor.registry

variable {w : Standing}

theorem kept_after (kept : w.Kept) (call : Call) : (w.after call).Kept := by
  cases call with
  | countFile t path => exact (w.surveyor.steady_countFile t path w.made kept).2
  | scan t path => exact (w.surveyor.steady_scan t path w.made kept).2
  | run t paths => exact (w.surveyor.steady_run t paths w.made kept).2
  | register l =>
      -- Registering only adds languages, so those that have a classifier are still known.
      intro id classifier member
      obtain ⟨known, sameId⟩ := kept id classifier member
      exact ⟨Registry.mem_of_attempt known, sameId⟩

theorem kept_history (kept : w.Kept) (history : List Call) : (history.foldl after w).Kept := by
  induction history generalizing w with
  | nil => exact kept
  | cons call history ih => exact ih (kept_after kept call)

def result (w : Standing) (t : FileTree) (paths : List Text) : Survey :=
  ((w.surveyor.run t paths).run w.made).1

theorem result_eq_fresh (kept : w.Kept) (t : FileTree) (paths : List Text) :
    w.result t paths = (w.surveyor.run t paths).fresh :=
  (w.surveyor.steady_run t paths w.made kept).1

/-! ## Requests and their parts -/

theorem result_append (kept : w.Kept) (t : FileTree) (paths more : List Text) :
    w.result t (paths ++ more) = w.result t paths ++ w.result t more := by
  simp only [result_eq_fresh kept, Surveyor.fresh_run, List.map_append, Survey.join_append]

theorem genuine_of_mem_result (kept : w.Kept) {t : FileTree} {paths : List Text}
    {x : FileCounts × Language} (member : x ∈ (w.result t paths).counted) :
    w.surveyor.Genuine t x := by
  rw [result_eq_fresh kept] at member
  exact Surveyor.genuine_of_mem_run member

/-- A request in another order gives the same totals. -/
theorem mem_aggregate_of_perm (kept : w.Kept) {t : FileTree} {paths others : List Text}
    (counted : (w.result t paths).counted.Perm (w.result t others).counted) {e : Int × Totals}
    (member : e ∈ (w.result t paths).aggregate) : e ∈ (w.result t others).aggregate := by
  refine (w.result t paths).sumsUp_aggregate.mem_of_perm (w.result t others).sumsUp_aggregate
    counted ?_ member
  intro x among y among' sameId
  have known := (genuine_of_mem_result kept among).mem_languages
  have known' := (genuine_of_mem_result kept among').mem_languages
  rw [w.surveyor.registry.eq_of_id_eq known known' sameId]

end Standing

/-- After any history of calls a request comes to what it would come to if it were the first; it is
put together from its parts; every file is counted by its content in the language detected for it;
and in another order it comes to the same files, failures and totals. -/
theorem run_local_after_history (s : Surveyor) (history : List Call) (t : FileTree)
    (paths : List Text) :
    let w := history.foldl Standing.after ⟨s, []⟩
    w.result t paths = (Standing.mk w.surveyor []).result t paths ∧
      (∀ more,
        ((w.result t paths).stopped = none →
          (w.result t (paths ++ more)).files = (w.result t paths).files ++ (w.result t more).files ∧
          (w.result t (paths ++ more)).failures =
            (w.result t paths).failures ++ (w.result t more).failures ∧
          (w.result t (paths ++ more)).stopped = (w.result t more).stopped) ∧
        ((w.result t paths).stopped ≠ none → w.result t (paths ++ more) = w.result t paths)) ∧
      (∀ c ∈ (w.result t paths).files, ∃ l data m,
        (w.surveyor.registry.detectFile t c.path w.surveyor.sniff).language = .ok (some l) ∧
          t.openRaw c.path = .ok data ∧ l.markers = .ok m ∧
          c = ⟨c.path, l.id, m.classify {} data, data.length⟩) ∧
      ∀ others, paths.Perm others →
        ((w.result t paths).stopped = none ↔ (w.result t others).stopped = none) ∧
        ((w.result t paths).stopped = none →
          (w.result t paths).files.Perm (w.result t others).files ∧
          (w.result t paths).failures.Perm (w.result t others).failures ∧
          ∀ id totals, (id, totals) ∈ (w.result t paths).aggregate ↔
            (id, totals) ∈ (w.result t others).aggregate) := by
  intro w
  have first : Standing.Kept ⟨s, []⟩ := Classifiers.of_nil s.registry
  have kept : w.Kept := Standing.kept_history first history
  refine ⟨?_, fun more => ⟨fun going => ?_, fun stopped => ?_⟩, fun c member => ?_,
    fun others perm => ?_⟩
  · exact Standing.result_eq_fresh kept t paths
  · rw [Standing.result_append kept]
    refine ⟨Survey.files_append_of_going going _, Survey.failures_append_of_going going _, ?_⟩
    rw [Survey.stopped_append, going, Option.none_or]
  · rw [Standing.result_append kept]
    exact Survey.append_of_stopped (Option.isSome_iff_ne_none.mpr stopped) _
  · obtain ⟨x, among, rfl⟩ := Survey.mem_files.mp member
    obtain ⟨detected, data, c, opened, makes, counts⟩ :=
      Surveyor.genuine_iff.mp (Standing.genuine_of_mem_result kept among)
    have language := Classifier.language_of_make makes
    exact ⟨x.2, data, c.markers, detected, opened, language ▸ c.markers_eq,
      by rw [counts, ← language]; rfl⟩
  · have visits := perm.map fun given => (w.surveyor.visit t given).fresh
    have stops : (w.result t paths).stopped = none ↔ (w.result t others).stopped = none := by
      simp only [Standing.result_eq_fresh kept, Surveyor.fresh_run]
      exact Survey.stopped_join_perm visits
    refine ⟨stops, fun going => ?_⟩
    have counted : (w.result t paths).counted.Perm (w.result t others).counted := by
      simp only [Standing.result_eq_fresh kept, Surveyor.fresh_run] at going ⊢
      exact Survey.counted_join_perm visits going
    have failures : (w.result t paths).failures.Perm (w.result t others).failures := by
      simp only [Standing.result_eq_fresh kept, Surveyor.fresh_run] at going ⊢
      exact Survey.failures_join_perm visits going
    have files : (w.result t paths).files.Perm (w.result t others).files := by
      rw [Survey.files_eq, Survey.files_eq]
      exact counted.map _
    exact ⟨files, failures, fun id totals =>
      ⟨Standing.mem_aggregate_of_perm kept counted,
        Standing.mem_aggregate_of_perm kept counted.symm⟩⟩

/-! ## A history -/

open Surveyor in
/-- A file, a new language, and a whole directory. -/
def threeCalls : List Call :=
  [.countFile twoLanguages "a.c", .register (.withSlashComments 7 "Zig" [".zig"]),
    .run twoLanguages ["."]]

open Surveyor in
theorem stopped_threeCalls :
    ((threeCalls.foldl Standing.after ⟨standard, []⟩).result twoLanguages ["a.c", "d"]).stopped =
      none := by
  cbv

open Surveyor in
theorem run_local_after_history_threeCalls :
    let w := threeCalls.foldl Standing.after ⟨standard, []⟩
    ([Text.ofString "a.c", Text.ofString "d"].Perm [Text.ofString "d", Text.ofString "a.c"]) ∧
      (w.result twoLanguages ["a.c", "d"]).stopped = none ∧
      (w.result twoLanguages ["a.c", "d"]).files =
        (w.result twoLanguages ["a.c"]).files ++ (w.result twoLanguages ["d"]).files ∧
      (w.result twoLanguages ["a.c", "d"]).files.Perm (w.result twoLanguages ["d", "a.c"]).files ∧
      ∀ id totals, (id, totals) ∈ (w.result twoLanguages ["a.c", "d"]).aggregate ↔
        (id, totals) ∈ (w.result twoLanguages ["d", "a.c"]).aggregate := by
  intro w
  have perm : [Text.ofString "a.c", Text.ofString "d"].Perm
      [Text.ofString "d", Text.ofString "a.c"] := List.Perm.swap _ _ _
  obtain ⟨_, _, _, reordered⟩ :=
    run_local_after_history standard threeCalls twoLanguages ["a.c", "d"]
  obtain ⟨_, parts, _⟩ := run_local_after_history standard threeCalls twoLanguages ["a.c"]
  have begins : (w.result twoLanguages ["a.c"]).stopped = none :=
    Classical.not_not.mp fun stops =>
      stops ((congrArg Survey.stopped ((parts ["d"]).2 stops)).symm.trans stopped_threeCalls)
  obtain ⟨files, _, totals⟩ := (reordered _ perm).2 stopped_threeCalls
  exact ⟨perm, stopped_threeCalls, ((parts ["d"]).1 begins).1, files, totals⟩

end Bytewise

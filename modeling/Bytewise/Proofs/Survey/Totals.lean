import Bytewise.Proofs.Classifier.BlockComments
import Bytewise.Proofs.Classifier.LineByLine
import Bytewise.Proofs.Repetition
import Bytewise.Proofs.Survey.Counting
import Bytewise.Survey.Totals

/-!
# What the totals of a survey say

The totals of a survey are kept up one file at a time. `Aggregate.SumsUp` says what they are meant
to be: the languages in the order of their first files, for each of them the sums over its files,
and the sums over all files. Adding a file keeps this (`SumsUp.addFile`), so it holds of every
survey.

In the survey of a request an identifier stands for one registered language, and the lines of a file
are all counted if no marker of its language holds a line feed (`run_aggregate_sums`).
-/

namespace Bytewise

/-! ## Sums -/

namespace Totals

/-- The sums over files, under a name. -/
def ofFiles (name : Text) (files : List FileCounts) : Totals where
  name := name
  files := files.length
  code := ((files.map fun c => c.tally.code).sum : Nat)
  comment := ((files.map fun c => c.tally.comment).sum : Nat)
  blank := ((files.map fun c => c.tally.blank).sum : Nat)
  bytes := ((files.map fun c => c.size).sum : Nat)

theorem ofFiles_concat (name other : Text) (files : List FileCounts) (c : FileCounts) :
    ofFiles name (files ++ [c]) = (ofFiles name files).plus (ofFile other c) := by
  simp [ofFiles, plus, ofFile]

theorem ofFile_eq_ofFiles (name : Text) (c : FileCounts) : ofFile name c = ofFiles name [c] := by
  simp [ofFiles, ofFile]

theorem total_ofFiles (name : Text) (files : List FileCounts) :
    (ofFiles name files).total = ((files.map fun c => c.tally.total).sum : Nat) := by
  induction files with
  | nil => rfl
  | cons c files ih =>
      simp only [total, ofFiles, LineTally.total, List.map_cons, List.sum_cons] at ih ⊢
      omega

theorem ofFiles_perm (name : Text) {files files' : List FileCounts} (perm : files.Perm files') :
    ofFiles name files = ofFiles name files' := by
  simp only [ofFiles, perm.length_eq, (perm.map _).sum_nat]

theorem plus_right_comm (t u v : Totals) : (t.plus u).plus v = (t.plus v).plus u := by
  simp only [plus, mk.injEq, true_and]
  omega

theorem plus_assoc (t u v : Totals) : (t.plus u).plus v = t.plus (u.plus v) := by
  simp only [plus, mk.injEq, true_and]
  omega

theorem foldl_plus (t u : Totals) (ts : List Totals) :
    ts.foldl plus (t.plus u) = (ts.foldl plus t).plus u := by
  induction ts generalizing t with
  | nil => rfl
  | cons v ts ih => rw [List.foldl_cons, List.foldl_cons, plus_right_comm, ih]

end Totals

/-! ## Adding a file -/

namespace Aggregate

variable {a : Aggregate} {id : Int} {counts : Totals} {counted : List (FileCounts × Language)}

theorem ids_add (a : Aggregate) (id : Int) (counts : Totals) :
    (a.add id counts).map Prod.fst =
      if id ∈ a.map Prod.fst then a.map Prod.fst else a.map Prod.fst ++ [id] := by
  induction a with
  | nil => simp [add]
  | cons e rest ih =>
      obtain ⟨other, totals⟩ := e
      rw [add]
      by_cases same : other = id
      · simp [same]
      · rw [if_neg same, List.map_cons, ih]
        by_cases known : id ∈ rest.map Prod.fst
        · simp [known]
        · simp [known, Ne.symm same]

/-- An entry after adding counts: one of another language, the one that was added to, or a new one.
-/
theorem mem_add (distinct : (a.map Prod.fst).Nodup) {e : Int × Totals}
    (member : e ∈ a.add id counts) :
    e ∈ a ∧ e.1 ≠ id ∨ (∃ totals, (id, totals) ∈ a ∧ e = (id, totals.plus counts)) ∨
      id ∉ a.map Prod.fst ∧ e = (id, counts) := by
  induction a with
  | nil => exact .inr (.inr ⟨by simp, List.mem_singleton.mp member⟩)
  | cons first rest ih =>
      obtain ⟨other, totals⟩ := first
      rw [List.map_cons, List.nodup_cons] at distinct
      rw [add] at member
      split at member
      case isTrue same =>
        subst same
        obtain rfl | later := List.mem_cons.mp member
        · exact .inr (.inl ⟨totals, List.mem_cons_self, rfl⟩)
        · refine .inl ⟨List.mem_cons_of_mem _ later, fun equal => distinct.1 ?_⟩
          exact List.mem_map.mpr ⟨e, later, equal⟩
      case isFalse differs =>
        obtain rfl | later := List.mem_cons.mp member
        · exact .inl ⟨List.mem_cons_self, differs⟩
        · obtain ⟨before, other⟩ | ⟨old, before, same⟩ | ⟨absent, same⟩ := ih distinct.2 later
          · exact .inl ⟨List.mem_cons_of_mem _ before, other⟩
          · exact .inr (.inl ⟨old, List.mem_cons_of_mem _ before, same⟩)
          · exact .inr (.inr ⟨by simpa [Ne.symm differs] using absent, same⟩)

theorem grandTotal_add (a : Aggregate) (id : Int) (counts : Totals) :
    (a.add id counts).grandTotal = a.grandTotal.plus counts := by
  simp only [grandTotal, languages]
  generalize ({ name := "Total" } : Totals) = start
  induction a generalizing start with
  | nil => rfl
  | cons e rest ih =>
      obtain ⟨other, totals⟩ := e
      rw [add]
      split
      · simp only [List.map_cons, List.foldl_cons, ← Totals.plus_assoc, Totals.foldl_plus]
      · simp only [List.map_cons, List.foldl_cons, ih]

/-- Totals are those of counted files: in the order of the first file of each language, for each
language the sums over its files under the name it had first, and altogether the sums over all. -/
structure SumsUp (a : Aggregate) (counted : List (FileCounts × Language)) : Prop where
  ids : a.map Prod.fst = (counted.map fun x => x.2.id).eraseDups
  distinct : (a.map Prod.fst).Nodup
  totals : ∀ e ∈ a, ∃ x ∈ counted, x.2.id = e.1 ∧
    e.2 = Totals.ofFiles x.2.name ((counted.filter fun y => y.2.id = e.1).map Prod.fst)
  grand : a.grandTotal = Totals.ofFiles "Total" (counted.map Prod.fst)

theorem SumsUp.nil : SumsUp [] [] := ⟨rfl, by simp, by simp, rfl⟩

theorem SumsUp.addFile (sums : a.SumsUp counted) (x : FileCounts × Language) :
    (a.addFile x).SumsUp (counted ++ [x]) := by
  have known : x.2.id ∈ a.map Prod.fst ↔ ∃ y ∈ counted, y.2.id = x.2.id := by
    rw [sums.ids, List.mem_eraseDups, List.mem_map]
  refine ⟨?_, ?_, fun e member => ?_, ?_⟩
  · rw [Aggregate.addFile, ids_add, List.map_append]
    simp only [sums.ids, List.mem_eraseDups, List.map_cons, List.map_nil, eraseDups_concat]
  · rw [Aggregate.addFile, ids_add]
    split
    next => exact sums.distinct
    next new =>
      refine List.nodup_append.mpr ⟨sums.distinct, by simp, fun id before other last => ?_⟩
      rintro rfl
      exact new (List.mem_singleton.mp last ▸ before)
  · obtain ⟨before, other⟩ | ⟨old, before, rfl⟩ | ⟨absent, rfl⟩ := mem_add sums.distinct member
    · obtain ⟨y, among, sameId, sum⟩ := sums.totals e before
      refine ⟨y, List.mem_append_left _ among, sameId, ?_⟩
      rw [sum]
      simp [Ne.symm other]
    · obtain ⟨y, among, sameId, sum⟩ := sums.totals _ before
      refine ⟨y, List.mem_append_left _ among, sameId, ?_⟩
      dsimp only at sum ⊢
      rw [sum, ← Totals.ofFiles_concat]
      simp
    · -- No earlier file is of this language, so its sums are those of this file.
      have none : counted.filter (fun y => y.2.id = x.2.id) = [] := by
        refine List.filter_eq_nil_iff.mpr fun y among same => ?_
        exact absent (known.mpr ⟨y, among, of_decide_eq_true same⟩)
      refine ⟨x, by simp, rfl, ?_⟩
      simp [none, Totals.ofFile_eq_ofFiles]
  · rw [Aggregate.addFile, grandTotal_add, sums.grand, List.map_append]
    exact (Totals.ofFiles_concat _ _ _ _).symm

theorem SumsUp.addFiles (sums : a.SumsUp counted) (more : List (FileCounts × Language)) :
    SumsUp (more.foldl Aggregate.addFile a) (counted ++ more) := by
  induction more generalizing a counted with
  | nil => simpa using sums
  | cons x more ih => simpa using ih (sums.addFile x)

/-- Files in another order have the same totals, if a language has one name. -/
theorem SumsUp.mem_of_perm {a' : Aggregate} {counted' : List (FileCounts × Language)}
    (sums : a.SumsUp counted) (sums' : a'.SumsUp counted') (perm : counted.Perm counted')
    (named : ∀ x ∈ counted, ∀ y ∈ counted, x.2.id = y.2.id → x.2.name = y.2.name)
    {e : Int × Totals} (member : e ∈ a) : e ∈ a' := by
  obtain ⟨x, among, sameId, sum⟩ := sums.totals e member
  have present : e.1 ∈ a'.map Prod.fst := by
    rw [sums'.ids, List.mem_eraseDups, List.mem_map]
    exact ⟨x, perm.mem_iff.mp among, sameId⟩
  obtain ⟨e', member', same⟩ := List.mem_map.mp present
  obtain ⟨y, among', sameId', sum'⟩ := sums'.totals e' member'
  have name : x.2.name = y.2.name :=
    named x among y (perm.mem_iff.mpr among') (by rw [sameId, sameId', same])
  have equal : e = e' := by
    refine Prod.ext same.symm ?_
    rw [sum, sum', same, name]
    exact Totals.ofFiles_perm _ ((perm.filter _).map _)
  exact equal ▸ member'

end Aggregate

/-- The totals of a survey are those of the files it counted. -/
theorem Survey.sumsUp_aggregate (s : Survey) : s.aggregate.SumsUp s.counted := by
  rw [s.aggregate_eq]
  exact Aggregate.SumsUp.nil.addFiles s.counted

/-! ## The totals of a request -/

/-- The lines of a file are all counted, if no marker of its language holds a line feed. -/
theorem Surveyor.Genuine.total_tally {s : Surveyor} {t : FileTree} {x : FileCounts × Language}
    (genuine : s.Genuine t x) (oneLine : x.2.OneLineMarkers) :
    ∃ data, t.openRaw x.1.path = .ok data ∧ x.1.tally.total = lineCount data := by
  obtain ⟨_, data, c, opened, makes, counts⟩ := genuine_iff.mp genuine
  refine ⟨data, opened, ?_⟩
  rw [← Classifier.language_of_make makes] at oneLine
  have byLines := Markers.classify_eq_add_lineClasses
    (Language.oneLine_of_markers c.markers_eq oneLine) {} data
  rw [counts, Classifier.count, byLines, LineTally.total_add, Markers.length_lineClasses,
    length_cutLines]
  exact Nat.zero_add _

theorem exists_contents {t : FileTree} {files : List FileCounts}
    (counted : ∀ c ∈ files, ∃ data, t.openRaw c.path = .ok data ∧ c.tally.total = lineCount data) :
    ∃ contents : List Bytes, files.map (fun c => t.openRaw c.path) = contents.map .ok ∧
      (files.map fun c => c.tally.total).sum = (contents.map lineCount).sum := by
  induction files with
  | nil => exact ⟨[], rfl, rfl⟩
  | cons c files ih =>
      rw [List.forall_mem_cons] at counted
      obtain ⟨⟨data, opened, lines⟩, others⟩ := counted
      obtain ⟨contents, opens, sums⟩ := ih others
      exact ⟨data :: contents, by simp [opened, opens], by simp [lines, sums]⟩

namespace Surveyor

/-- The totals of a request: the identifiers of the languages in the order of their first files, for
each the sums over its files under its registered name, and altogether the sums over all files,
which account for every line of them. -/
theorem run_aggregate_sums {s : Surveyor} {made : Classifiers} (t : FileTree) (paths : List Text)
    (kept : made.Of s.registry) :
    let survey := ((s.run t paths).run made).1
    survey.aggregate.map Prod.fst = (survey.files.map FileCounts.languageId).eraseDups ∧
      (∀ id totals, (id, totals) ∈ survey.aggregate →
        ∃ l ∈ s.registry.languages, l.id = id ∧
          totals = Totals.ofFiles l.name (survey.files.filter fun c => c.languageId = id)) ∧
      survey.aggregate.grandTotal = Totals.ofFiles "Total" survey.files ∧
      ((∀ l ∈ s.registry.languages, l.id ∈ survey.files.map FileCounts.languageId →
          l.OneLineMarkers) →
        ∃ contents : List Bytes,
          survey.files.map (fun c => t.openRaw c.path) = contents.map .ok ∧
            survey.aggregate.grandTotal.total = ((contents.map lineCount).sum : Nat)) := by
  intro survey
  have genuine : ∀ x ∈ survey.counted, s.Genuine t x := by
    intro x member
    have fresh : survey = (s.run t paths).fresh := (s.steady_run t paths made kept).1
    rw [fresh] at member
    exact genuine_of_mem_run member
  have sums := survey.sumsUp_aggregate
  rw [survey.files_eq]
  refine ⟨?_, fun id totals member => ?_, sums.grand, fun oneLine => ?_⟩
  · rw [sums.ids, List.map_map]
    congr 1
    exact List.map_congr_left fun x member => (genuine x member).languageId.symm
  · obtain ⟨x, among, sameId, sum⟩ := sums.totals _ member
    refine ⟨x.2, (genuine x among).mem_languages, sameId, sum.trans ?_⟩
    rw [List.filter_map]
    congr 2
    exact List.filter_congr fun y member => by simp [(genuine y member).languageId]
  · have counted : ∀ c ∈ survey.counted.map Prod.fst, ∃ data, t.openRaw c.path = .ok data ∧
        c.tally.total = lineCount data := by
      intro c member
      obtain ⟨x, among, rfl⟩ := List.mem_map.mp member
      have used : x.2.id ∈ (survey.counted.map Prod.fst).map FileCounts.languageId :=
        List.mem_map.mpr ⟨x.1, member, (genuine x among).languageId⟩
      exact (genuine x among).total_tally (oneLine x.2 (genuine x among).mem_languages used)
    obtain ⟨contents, opens, lines⟩ := exists_contents counted
    refine ⟨contents, opens, ?_⟩
    rw [sums.grand, Totals.total_ofFiles]
    exact congrArg Nat.cast lines

/-! ## Files of two languages -/

theorem oneLineMarkers_standard : ∀ l ∈ standard.registry.languages, l.OneLineMarkers := by
  intro l known
  obtain rfl | ⟨_, id, name, extensions, rfl⟩ := Language.cases_of_mem_standard known
  · exact ⟨by decide, by decide, by decide⟩
  · constructor <;> simp [Language.withSlashComments, Text.ofChars]

def twoLanguages : FileTree :=
  [("b.py", .file {} (Text.encode "# b\n")), ("a.c", .file {} (Text.encode "a;\n\n")),
    ("d", .directory {} [("c.c", .file {} (Text.encode "c;"))])]

theorem languageId_twoLanguages :
    ((standard.run twoLanguages ["."]).run []).1.files.map FileCounts.languageId = [1, 3, 1] := by
  cbv

theorem run_aggregate_sums_twoLanguages :
    let survey := ((standard.run twoLanguages ["."]).run []).1
    Classifiers.Of standard.registry [] ∧
      survey.files.map FileCounts.languageId = [1, 3, 1] ∧
      survey.aggregate.map Prod.fst = [1, 3] ∧
      survey.aggregate.grandTotal = Totals.ofFiles "Total" survey.files ∧
      ∃ contents : List Bytes,
        survey.files.map (fun c => twoLanguages.openRaw c.path) = contents.map .ok ∧
          survey.aggregate.grandTotal.total = ((contents.map lineCount).sum : Nat) := by
  intro survey
  have kept := Classifiers.of_nil standard.registry
  obtain ⟨ids, _, grand, lines⟩ := run_aggregate_sums twoLanguages ["."] kept
  refine ⟨kept, languageId_twoLanguages, ?_, grand,
    lines fun l known _ => oneLineMarkers_standard l known⟩
  rw [ids, languageId_twoLanguages]
  decide

end Surveyor

end Bytewise

import Bytewise.Proofs.Classifier.Markers
import Bytewise.Proofs.Classifier.Scan
import Bytewise.Proofs.Text.Lines
import Bytewise.Source.LanguageTable

/-!
# Classifying a file line by line

The classifier makes one pass over a whole file. Here is the reading that a user has in mind: the
file is cut into lines, each line is scanned by itself, and one class is given to each. All that a
line needs to know of those before it is its `Carry`. A comment to the end of the line is not among
the carries, so no line can start inside one.

The two agree for all markers without a line feed (`classify_eq_add_lineClasses`). The argument is
that a scan always lands on the line feed that ends a line: a marker holds no line feed, so none
that is found before the line feed reaches across it (`landed_of_endBefore`).
-/

namespace Bytewise

/-- What a line hands on to the next. -/
inductive Carry where
  | code
  | blockComment
  /-- Inside a string opened by this quote. -/
  | string (quote : UInt8)
  deriving DecidableEq, Repr

namespace Carry

/-- The mode in which the next line starts. -/
def mode : Carry → Mode
  | .code => .code
  | .blockComment => .blockComment
  | .string quote => .string quote

/-- What a line hands on if its scan ends in this mode: a line comment is over. -/
def ofMode : Mode → Carry
  | .code => .code
  | .lineComment => .code
  | .blockComment => .blockComment
  | .string quote => .string quote

theorem mode_ofMode (mode : Mode) :
    (ofMode mode).mode = if mode = .lineComment then .code else mode := by
  cases mode <;> rfl

end Carry

inductive LineClass where
  | code
  | comment
  | blank
  deriving DecidableEq, Repr

def LineTally.add (t : LineTally) (classes : List LineClass) : LineTally where
  code := t.code + classes.count .code
  comment := t.comment + classes.count .comment
  blank := t.blank + classes.count .blank

/-- The class of a line whose scan ended like this. -/
def Scan.lineClass (s : Scan) : LineClass :=
  match s.mode with
  | .lineComment => .comment
  | .blockComment => .comment
  | _ => if s.hasCode then .code else if s.hasComment then .comment else .blank

namespace Markers

/-- Scan a line by itself. Nothing is known of the line before it but the carry; in particular its
first byte has no backslash before it. -/
def scanLine (m : Markers) (carry : Carry) (line : Bytes) : LineClass × Carry :=
  let s := Scan.run m 0 { mode := carry.mode } (lineContent line)
  (s.lineClass, Carry.ofMode s.mode)

/-- The classes of lines, the first of which starts with the given carry. -/
def lineClasses (m : Markers) (carry : Carry) : List Bytes → List LineClass
  | [] => []
  | line :: rest => (m.scanLine carry line).1 :: m.lineClasses (m.scanLine carry line).2 rest

end Markers

/-! ## Tallies -/

namespace LineTally

@[simp] theorem add_nil (t : LineTally) : t.add [] = t := rfl

theorem add_cons (t : LineTally) (c : LineClass) (classes : List LineClass) :
    t.add (c :: classes) = (t.add [c]).add classes := by
  simp only [add, List.count_cons, List.count_nil, Nat.zero_add]
  congr 1 <;> omega

theorem total_add (t : LineTally) (classes : List LineClass) :
    (t.add classes).total = t.total + classes.length := by
  induction classes generalizing t with
  | nil => rfl
  | cons c classes ih =>
      have one : (t.add [c]).total = t.total + 1 := by
        cases c <;> simp [add, total] <;> omega
      rw [add_cons, ih, one, List.length_cons]
      omega

end LineTally

theorem Markers.length_lineClasses (m : Markers) (carry : Carry) (lines : List Bytes) :
    (m.lineClasses carry lines).length = lines.length := by
  induction lines generalizing carry with
  | nil => rfl
  | cons line rest ih => rw [lineClasses, List.length_cons, List.length_cons, ih]

/-- The class of a line depends on its content only, not on whether a line feed ends it. -/
theorem Markers.lineClasses_congr (m : Markers) (carry : Carry) {lines lines' : List Bytes}
    (same : lines.map lineContent = lines'.map lineContent) :
    m.lineClasses carry lines = m.lineClasses carry lines' := by
  induction lines generalizing carry lines' with
  | nil =>
      cases lines' with
      | nil => rfl
      | cons line rest => cases same
  | cons line rest ih =>
      cases lines' with
      | nil => cases same
      | cons line' rest' =>
          rw [List.map_cons, List.map_cons, List.cons.injEq] at same
          have scanned : m.scanLine carry line = m.scanLine carry line' := by
            rw [scanLine, scanLine, same.1]
          rw [lineClasses, lineClasses, scanned, ih _ same.2]

namespace Scan

variable {m : Markers} {s : Scan} {b : UInt8} {body rest data : Bytes} {taken : Nat}

theorem closeLine_eq_add (s : Scan) : s.closeLine = s.tally.add [s.lineClass] := by
  obtain ⟨mode, hasCode, hasComment, previous, tally⟩ := s
  cases mode <;> cases hasCode <;> cases hasComment <;> rfl

/-- A line feed counts the line in its class and hands on the carry. -/
theorem nextLine_eq (s : Scan) :
    s.nextLine =
      { mode := (Carry.ofMode s.mode).mode
        previous := s.previous
        tally := s.tally.add [s.lineClass] } := by
  rw [nextLine, closeLine_eq_add, Carry.mode_ofMode]

/-! ## No marker reaches across a byte that none of them holds -/

private theorem length_le_of_prefix {marker : Bytes} (found : marker <+: body ++ rest)
    (ends : ∀ b ∈ rest.head?, b ∉ marker) : marker.length ≤ body.length := by
  apply Nat.le_of_not_lt
  intro longer
  cases rest with
  | nil =>
      have within := found.length_le
      rw [List.append_nil] at within
      omega
  | cons b rest =>
      have reaches : body ++ [b] <+: marker := by
        apply List.prefix_of_prefix_length_le _ found (by rwa [List.length_append])
        exact ⟨rest, by simp⟩
      exact ends b rfl (reaches.subset (by simp))

theorem taken_le_of_endBefore (ends : m.EndBefore rest) :
    (s.step m b (body ++ rest)).2 ≤ body.length := by
  have inside {marker : Bytes} (ends : ∀ b ∈ rest.head?, b ∉ marker)
      (found : marker <+: b :: (body ++ rest)) : marker.length - 1 ≤ body.length := by
    have bound : marker.length ≤ (b :: body).length := length_le_of_prefix found ends
    rw [List.length_cons] at bound
    omega
  have rule := step_rule m s b (body ++ rest)
  generalize s.step m b (body ++ rest) = next at rule
  cases rule with
  | openBlock _ _ _ found => exact inside ends.blockStart found
  | openLine _ _ _ _ found => exact inside ends.line found
  | closeBlock _ _ found => exact inside ends.blockEnd found
  | _ => exact Nat.zero_le _

theorem landed_of_endBefore (ends : m.EndBefore rest) (inside : taken ≤ body.length) :
    (across m rest taken s body).2 = 0 := by
  induction body generalizing taken s with
  | nil => exact Nat.le_zero.mp inside
  | cons b body ih =>
      cases taken with
      | zero => exact ih (taken_le_of_endBefore ends)
      | succ taken => exact ih (Nat.le_of_succ_le_succ inside)

/-- The scan behind a line is the scan of the line's content, closed by the line feed. -/
theorem run_line (oneLine : m.OneLine) (s : Scan) (body rest : Bytes) :
    run m 0 s (body ++ newline :: rest) =
      run m 0 { (run m 0 s body).nextLine with previous := newline } rest := by
  rw [run_append_of_landed (landed_of_endBefore (oneLine.endBefore rest) (Nat.zero_le _)), run,
    (Rule.lineFeed rfl).step_eq]

/-! ## The two readings agree -/

/-- The scan of a line's content from the start of the line: the tally is carried along, and the
byte before the line, which is no backslash, does not matter. -/
theorem run_content (noFeed : newline ∉ body) (carry : Carry) {previous : UInt8}
    (unescaped : previous ≠ backslash) (tally : LineTally) :
    run m 0 { mode := carry.mode, previous, tally } body =
      { run m 0 { mode := carry.mode } body with previous := body.getLastD previous, tally } := by
  have tallied : run m 0 { mode := carry.mode, previous, tally } body =
      { run m 0 { mode := carry.mode, previous } body with tally } :=
    run_with_tally (s := { mode := carry.mode, previous }) noFeed tally
  rw [tallied]
  cases body with
  | nil => rfl
  | cons b body =>
      have start : run m 0 { mode := carry.mode, previous } (b :: body) =
          run m 0 { mode := carry.mode } (b :: body) := by
        refine run_cons_with_previous (s := { mode := carry.mode }) fun _ _ => ?_
        exact ⟨fun escape => absurd escape unescaped, fun escape => by cases escape⟩
      have last := previous_run m 0 { mode := carry.mode } (b :: body)
      rw [List.getLastD_cons] at last
      rw [start, List.getLastD_cons, ← last]

/-- The scan of the rest of a file from the start of a line. Only a file without a line left can end
here, and then a line feed came before it or it is empty. -/
theorem finish_run_eq_add (oneLine : m.OneLine) (carry : Carry) {previous : UInt8}
    (unescaped : previous ≠ backslash) (tally : LineTally)
    (started : data ≠ [] ∨ previous = newline) :
    (run m 0 { mode := carry.mode, previous, tally } data).finish =
      tally.add (m.lineClasses carry (cutLines data)) := by
  induction data using linesInduction generalizing carry previous tally with
  | nil =>
      obtain nonempty | feed := started
      · exact absurd rfl nonempty
      · simp [run, finish, feed, Markers.lineClasses]
  | tail body nonempty noFeed =>
      have unfinished : body.getLastD previous ≠ newline := by
        intro feed
        rw [List.getLastD_eq_getLast?, List.getLast?_eq_some_getLast nonempty] at feed
        exact noFeed (feed ▸ List.getLast_mem nonempty)
      rw [run_content noFeed carry unescaped, finish, if_neg unfinished, closeLine_eq_add,
        cutLines_tail nonempty noFeed]
      simp only [Markers.lineClasses, Markers.scanLine, lineContent_tail noFeed]
      rfl
  | line body rest noFeed ih =>
      rw [run_line oneLine, run_content noFeed carry unescaped, nextLine_eq, cutLines_line noFeed]
      simp only [Markers.lineClasses, Markers.scanLine, lineContent_line noFeed]
      exact (ih _ (by decide) _ (.inr rfl)).trans (LineTally.add_cons _ _ _).symm

end Scan

/-- One pass over a file gives its lines the classes that scanning them one by one gives. -/
theorem Markers.classify_eq_add_lineClasses {m : Markers} (oneLine : m.OneLine)
    (start : LineTally) (data : Bytes) :
    m.classify start data = start.add (m.lineClasses .code (cutLines data)) := by
  cases data with
  | nil => rfl
  | cons b data =>
      rw [classify_of_ne_nil (List.cons_ne_nil b data)]
      exact Scan.finish_run_eq_add oneLine .code (by decide) start (.inl (List.cons_ne_nil b data))

/-- A language with ASCII markers without a line feed classifies every file line by line. So every
line is counted once, and it makes no difference whether the last one is ended by a line feed. -/
theorem Language.classify_line_by_line (l : Language) (ascii : l.AsciiMarkers)
    (oneLine : l.OneLineMarkers) :
    ∃ m, l.markers = .ok m ∧ ∀ start data,
      m.classify start data = start.add (m.lineClasses .code (cutLines data)) ∧
      (m.classify start data).total = start.total + lineCount data ∧
      (data ≠ [] → data.getLast? ≠ some newline →
        m.classify start (data ++ [newline]) = m.classify start data) := by
  obtain ⟨m, encoded⟩ := exists_markers_iff.mpr ascii
  refine ⟨m, encoded, fun start data => ?_⟩
  have byLines := Markers.classify_eq_add_lineClasses (oneLine_of_markers encoded oneLine) start
  refine ⟨byLines data, ?_, fun nonempty unfinished => ?_⟩
  · rw [byLines, LineTally.total_add, Markers.length_lineClasses, length_cutLines]
  · have same := lineContent_cutLines_append_newline nonempty unfinished
    rw [byLines, byLines, m.lineClasses_congr .code same]

theorem Language.classify_line_by_line_python :
    python.AsciiMarkers ∧ python.OneLineMarkers ∧
    ∃ m, python.markers = .ok m ∧ ∀ start data,
      m.classify start data = start.add (m.lineClasses .code (cutLines data)) ∧
      (m.classify start data).total = start.total + lineCount data ∧
      (data ≠ [] → data.getLast? ≠ some newline →
        m.classify start (data ++ [newline]) = m.classify start data) :=
  have ascii : python.AsciiMarkers := ⟨by decide, by decide, by decide⟩
  have oneLine : python.OneLineMarkers := ⟨by decide, by decide, by decide⟩
  ⟨ascii, oneLine, classify_line_by_line python ascii oneLine⟩

end Bytewise

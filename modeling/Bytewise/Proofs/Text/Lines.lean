import Bytewise.Text.Line

/-!
# Lines of bytes

Bytes are either empty, or a tail without a line feed, or a line with its line feed and the bytes
behind it. `linesInduction` proves a statement about all bytes along these three cases, and
`cutLines` has one equation for each of them; the accumulators of its definition show up nowhere
else.
-/

namespace Bytewise

/-- The number of lines: one for each line feed, and one more for a tail without one. -/
def lineCount (data : Bytes) : Nat :=
  data.count newline + if data ≠ [] ∧ data.getLast? ≠ some newline then 1 else 0

def lineContent (line : Bytes) : Bytes := line.takeWhile (· ≠ newline)

variable {body rest data : Bytes}

/-- Induction along the lines of a file. -/
theorem linesInduction {motive : Bytes → Prop} (nil : motive [])
    (tail : ∀ body, body ≠ [] → newline ∉ body → motive body)
    (line : ∀ body rest, newline ∉ body → motive rest → motive (body ++ newline :: rest))
    (data : Bytes) : motive data := by
  -- The bytes already passed over form the beginning of the line being read.
  suffices general : ∀ begun, newline ∉ begun → motive (begun ++ data) from
    general [] List.not_mem_nil
  induction data with
  | nil =>
      intro begun noFeed
      rw [List.append_nil]
      by_cases empty : begun = []
      · exact empty ▸ nil
      · exact tail begun empty noFeed
  | cons b data ih =>
      intro begun noFeed
      by_cases feed : b = newline
      · subst feed
        exact line begun data noFeed (ih [] List.not_mem_nil)
      · have longer := ih (begun ++ [b]) (by simpa [noFeed] using Ne.symm feed)
        rwa [List.append_assoc, List.singleton_append] at longer

/-! ## Cutting -/

theorem cutLinesFrom_done (done : List Bytes) (current data : Bytes) :
    cutLinesFrom done current data = done.reverse ++ cutLinesFrom [] current data := by
  induction data generalizing done current with
  | nil =>
      by_cases empty : current.isEmpty = true
      · simp [cutLinesFrom, empty]
      · simp [cutLinesFrom, empty]
  | cons b data ih =>
      by_cases feed : b = newline
      · simp only [cutLinesFrom, if_pos feed]
        rw [ih, ih [_]]
        simp
      · simp only [cutLinesFrom, if_neg feed]
        exact ih done (b :: current)

theorem cutLinesFrom_append (noFeed : newline ∉ body) (done : List Bytes) (current rest : Bytes) :
    cutLinesFrom done current (body ++ rest) =
      cutLinesFrom done (body.reverse ++ current) rest := by
  induction body generalizing current with
  | nil => rfl
  | cons b body ih =>
      rw [List.mem_cons, not_or] at noFeed
      rw [List.cons_append, cutLinesFrom, if_neg (Ne.symm noFeed.1), ih noFeed.2]
      simp

@[simp] theorem cutLines_nil : cutLines [] = [] := rfl

theorem cutLines_tail (nonempty : body ≠ []) (noFeed : newline ∉ body) :
    cutLines body = [body] := by
  have passed := cutLinesFrom_append noFeed [] [] []
  rw [List.append_nil, List.append_nil] at passed
  rw [cutLines, passed, cutLinesFrom]
  simp [nonempty]

theorem cutLines_line (noFeed : newline ∉ body) (rest : Bytes) :
    cutLines (body ++ newline :: rest) = (body ++ [newline]) :: cutLines rest := by
  rw [cutLines, cutLinesFrom_append noFeed, cutLinesFrom, if_pos rfl, cutLinesFrom_done, cutLines]
  simp

theorem flatten_cutLines (data : Bytes) : (cutLines data).flatten = data := by
  induction data using linesInduction with
  | nil => rfl
  | tail body nonempty noFeed => rw [cutLines_tail nonempty noFeed, List.flatten_singleton]
  | line body rest noFeed ih =>
      rw [cutLines_line noFeed, List.flatten_cons, ih, List.append_assoc, List.singleton_append]

/-! ## Counting -/

theorem lineCount_tail (nonempty : body ≠ []) (noFeed : newline ∉ body) : lineCount body = 1 := by
  have last : body.getLast? ≠ some newline :=
    fun feed => noFeed (List.mem_of_getLast? feed)
  rw [lineCount, List.count_eq_zero.mpr noFeed, if_pos ⟨nonempty, last⟩]

theorem lineCount_line (noFeed : newline ∉ body) (rest : Bytes) :
    lineCount (body ++ newline :: rest) = lineCount rest + 1 := by
  rw [lineCount, lineCount, List.count_append, List.count_eq_zero.mpr noFeed, List.count_cons_self]
  cases rest with
  | nil => simp
  | cons b rest =>
      simp
      omega

theorem length_cutLines (data : Bytes) : (cutLines data).length = lineCount data := by
  induction data using linesInduction with
  | nil => rfl
  | tail body nonempty noFeed =>
      rw [cutLines_tail nonempty noFeed, lineCount_tail nonempty noFeed, List.length_singleton]
  | line body rest noFeed ih =>
      rw [cutLines_line noFeed, lineCount_line noFeed, List.length_cons, ih]

/-! ## Contents -/

theorem lineContent_append (noFeed : newline ∉ body) (rest : Bytes) :
    lineContent (body ++ rest) = body ++ lineContent rest := by
  apply List.takeWhile_append_of_pos
  intro b member
  simpa using fun feed : b = newline => noFeed (feed ▸ member)

theorem lineContent_tail (noFeed : newline ∉ body) : lineContent body = body := by
  simpa [lineContent] using lineContent_append noFeed []

theorem lineContent_line (noFeed : newline ∉ body) : lineContent (body ++ [newline]) = body := by
  simpa [lineContent] using lineContent_append noFeed [newline]

theorem lineContent_newline (rest : Bytes) : lineContent (newline :: rest) = [] := by
  simp [lineContent]

/-- Bytes with a line feed begin with one line only. -/
theorem line_inj {body' rest' : Bytes} (noFeed : newline ∉ body) (noFeed' : newline ∉ body') :
    body ++ newline :: rest = body' ++ newline :: rest' ↔ body = body' ∧ rest = rest' := by
  constructor
  · intro same
    have bodies := congrArg lineContent same
    rw [lineContent_append noFeed, lineContent_append noFeed', lineContent_newline,
      lineContent_newline, List.append_nil, List.append_nil] at bodies
    subst bodies
    simpa using same
  · rintro ⟨rfl, rfl⟩
    rfl

/-- Ending an unfinished last line with a line feed changes no line's content. -/
theorem lineContent_cutLines_append_newline (nonempty : data ≠ [])
    (unfinished : data.getLast? ≠ some newline) :
    (cutLines (data ++ [newline])).map lineContent = (cutLines data).map lineContent := by
  induction data using linesInduction with
  | nil => exact absurd rfl nonempty
  | tail body _ noFeed =>
      rw [cutLines_line noFeed, cutLines_tail nonempty noFeed]
      simp [lineContent_line noFeed, lineContent_tail noFeed]
  | line body rest noFeed ih =>
      have more : rest ≠ [] := by
        rintro rfl
        simp at unfinished
      have last : rest.getLast? ≠ some newline := by
        obtain ⟨b, rest, rfl⟩ := List.exists_cons_of_ne_nil more
        simpa using unfinished
      rw [List.append_assoc, List.cons_append, cutLines_line noFeed, cutLines_line noFeed,
        List.map_cons, List.map_cons, ih more last]

end Bytewise

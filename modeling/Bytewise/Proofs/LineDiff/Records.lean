import Bytewise.Proofs.LineDiff.Unambiguous

/-!
# The lines of a comparison's text

A hunk is written as a line that announces it, the lines of the two files that it shows, each behind
a mark, and a line of dashes between two of them (`Hunk.records`). A line is shown with the line
feed it has, so the text consists of these lines only as long as each of them but the last has its
line feed (`map_lineContent_cutLines_flatten_iff`).

Only the last line of a file can lack its line feed. The text is then broken if the line is shown
and something is written behind it: the dashes, if the other file has a line there too, or another
hunk, which there is if the other file has more lines (`text_records_iff`). At the end of the longer
file, and at the end of the second of two files of the same length, nothing follows.
-/

namespace Bytewise

/-! ## Bytes made of lines -/

/-- A line with its line feed, or one without it, of which something must be left. -/
inductive IsLine : Bytes → Prop where
  | finished {body : Bytes} (noFeed : newline ∉ body) : IsLine (body ++ [newline])
  | unfinished {body : Bytes} (nonempty : body ≠ []) (noFeed : newline ∉ body) : IsLine body

def Finished (line : Bytes) : Prop := line.getLast? = some newline

/-- The last line of a file lacks its line feed. -/
def Unfinished (data : Bytes) : Prop := data ≠ [] ∧ ¬ Finished data

variable {body line mark data a b : Bytes} {lines : List Bytes} {i : Nat}

theorem finished_line (body : Bytes) : Finished (body ++ [newline]) := List.getLast?_concat

theorem not_finished_of_not_mem (noFeed : newline ∉ body) : ¬ Finished body :=
  fun finished => noFeed (List.mem_of_getLast? finished)

theorem IsLine.ne_nil (isLine : IsLine line) : line ≠ [] := by
  cases isLine with
  | finished => simp
  | unfinished nonempty => exact nonempty

theorem IsLine.append (isLine : IsLine line) (noFeed : newline ∉ mark) : IsLine (mark ++ line) := by
  cases isLine with
  | finished noFeed' =>
      rw [← List.append_assoc]
      exact .finished (by simp [noFeed, noFeed'])
  | unfinished nonempty noFeed' =>
      exact .unfinished (by simp [nonempty]) (by simp [noFeed, noFeed'])

theorem finished_append_iff (nonempty : line ≠ []) (mark : Bytes) :
    Finished (mark ++ line) ↔ Finished line := by
  rw [Finished, Finished, List.getLast?_append, List.getLast?_eq_some_getLast nonempty,
    Option.some_or]

theorem isLine_of_mem_cutLines (member : line ∈ cutLines data) : IsLine line := by
  induction data using linesInduction with
  | nil => cases member
  | tail body nonempty noFeed =>
      rw [cutLines_tail nonempty noFeed, List.mem_singleton] at member
      exact member ▸ .unfinished nonempty noFeed
  | line body rest noFeed ih =>
      rw [cutLines_line noFeed, List.mem_cons] at member
      obtain rfl | later := member
      · exact .finished noFeed
      · exact ih later

/-- Only at the end of a file a line lacks its line feed. -/
theorem exists_not_finished_iff :
    (∃ line, (cutLines data)[i]? = some line ∧ ¬ Finished line) ↔
      Unfinished data ∧ i + 1 = lineCount data := by
  induction data using linesInduction generalizing i with
  | nil => simp [Unfinished]
  | tail body nonempty noFeed =>
      rw [cutLines_tail nonempty noFeed, lineCount_tail nonempty noFeed]
      cases i with
      | zero => simp [Unfinished, nonempty, not_finished_of_not_mem noFeed]
      | succ i => simp
  | line body rest noFeed ih =>
      have last : Unfinished (body ++ newline :: rest) ↔ Unfinished rest := by
        cases rest with
        | nil => simp [Unfinished, finished_line]
        | cons b rest =>
            rw [← List.singleton_append, ← List.append_assoc, Unfinished, Unfinished,
              finished_append_iff (List.cons_ne_nil b rest)]
            simp
      rw [cutLines_line noFeed, lineCount_line noFeed, last]
      cases i with
      | zero =>
          have counted : Unfinished rest → lineCount rest ≠ 0 := by
            intro unfinished
            have counts : rest ≠ [] ∧ rest.getLast? ≠ some newline := unfinished
            rw [lineCount, if_pos counts]
            omega
          simpa [finished_line, eq_comm] using counted
      | succ i => rw [List.getElem?_cons_succ, ih, Nat.add_right_cancel_iff]

/-- What stands in front of more bytes without a line feed of its own is no line. -/
theorem lineCount_append (noFeed : newline ∉ body) (nonempty : data ≠ []) :
    lineCount (body ++ data) = lineCount data := by
  have last : (body ++ data).getLast? = data.getLast? := by
    rw [List.getLast?_append, List.getLast?_eq_some_getLast nonempty, Option.some_or]
  rw [lineCount, lineCount, List.count_append, List.count_eq_zero.mpr noFeed, last, Nat.zero_add]
  simp [nonempty]

/-- Lines are read back if each of them but the last has its line feed. -/
theorem cutLines_flatten (isLine : ∀ line ∈ lines, IsLine line)
    (separate : lines.Pairwise fun line _ => Finished line) : cutLines lines.flatten = lines := by
  induction lines with
  | nil => rfl
  | cons line rest ih =>
      obtain ⟨here, later⟩ := List.forall_mem_cons.mp isLine
      obtain ⟨finished, others⟩ := List.pairwise_cons.mp separate
      rw [List.flatten_cons]
      cases here with
      | finished noFeed =>
          rw [List.append_assoc, List.singleton_append, cutLines_line noFeed, ih later others]
      | unfinished nonempty noFeed =>
          cases rest with
          | nil => rw [List.flatten_nil, List.append_nil, cutLines_tail nonempty noFeed]
          | cons next rest =>
              exact absurd (finished next List.mem_cons_self) (not_finished_of_not_mem noFeed)

theorem flatten_ne_nil (isLine : ∀ line ∈ lines, IsLine line) (nonempty : lines ≠ []) :
    lines.flatten ≠ [] := by
  obtain ⟨line, rest, rfl⟩ := List.exists_cons_of_ne_nil nonempty
  simp [(isLine line List.mem_cons_self).ne_nil]

theorem lineCount_flatten_le (isLine : ∀ line ∈ lines, IsLine line) :
    lineCount lines.flatten ≤ lines.length := by
  induction lines with
  | nil => simp [lineCount]
  | cons line rest ih =>
      obtain ⟨here, later⟩ := List.forall_mem_cons.mp isLine
      have fewer := ih later
      rw [List.flatten_cons, List.length_cons]
      cases here with
      | finished noFeed =>
          rw [List.append_assoc, List.singleton_append, lineCount_line noFeed]
          omega
      | unfinished nonempty noFeed =>
          by_cases last : rest = []
          · subst last
            rw [List.flatten_nil, List.append_nil, lineCount_tail nonempty noFeed]
            simp
          · rw [lineCount_append noFeed (flatten_ne_nil later last)]
            omega

/-- A line without its line feed runs into the one behind it, and then there are fewer lines. -/
theorem lineCount_flatten_lt (isLine : ∀ line ∈ lines, IsLine line)
    (joined : ¬ lines.Pairwise fun line _ => Finished line) :
    lineCount lines.flatten < lines.length := by
  induction lines with
  | nil => exact absurd .nil joined
  | cons line rest ih =>
      obtain ⟨here, later⟩ := List.forall_mem_cons.mp isLine
      rw [List.flatten_cons, List.length_cons]
      cases here with
      | finished noFeed =>
          have joined : ¬ rest.Pairwise fun line _ => Finished line := fun separate =>
            joined (List.pairwise_cons.mpr ⟨fun _ _ => finished_line _, separate⟩)
          have fewer := ih later joined
          rw [List.append_assoc, List.singleton_append, lineCount_line noFeed]
          omega
      | unfinished nonempty noFeed =>
          have more : rest ≠ [] := by
            rintro rfl
            exact joined (List.pairwise_singleton _ _)
          have fewer := lineCount_flatten_le later
          rw [lineCount_append noFeed (flatten_ne_nil later more)]
          omega

/-- The contents of lines can be read back exactly if each line but the last has its line feed. -/
theorem map_lineContent_cutLines_flatten_iff (isLine : ∀ line ∈ lines, IsLine line) :
    (cutLines lines.flatten).map lineContent = lines.map lineContent ↔
      lines.Pairwise fun line _ => Finished line := by
  constructor
  · intro same
    refine Classical.byContradiction fun joined => ?_
    have counts := congrArg List.length same
    rw [List.length_map, List.length_map, length_cutLines] at counts
    exact Nat.ne_of_lt (lineCount_flatten_lt isLine joined) counts
  · intro separate
    rw [cutLines_flatten isLine separate]

/-! ## The lines of a hunk -/

namespace Hunk

/-- The lines in which a hunk is written, without their line feeds. -/
def records (h : Hunk) : List Bytes :=
  (Text.ofChars h.headerChars).encode :: match h.change with
    | .added new => [[0x3E, 0x20] ++ lineContent new]
    | .deleted old => [[0x3C, 0x20] ++ lineContent old]
    | .changed old new =>
      [[0x3C, 0x20] ++ lineContent old, [0x2D, 0x2D, 0x2D], [0x3E, 0x20] ++ lineContent new]

/-- The pieces of which the text of a hunk is made, each with the line feed it has. -/
def pieces (h : Hunk) : List Bytes :=
  ((Text.ofChars h.headerChars).encode ++ [newline]) :: match h.change with
    | .added new => [[0x3E, 0x20] ++ new]
    | .deleted old => [[0x3C, 0x20] ++ old]
    | .changed old new =>
      [[0x3C, 0x20] ++ old, [0x2D, 0x2D, 0x2D] ++ [newline], [0x3E, 0x20] ++ new]

variable {h h' : Hunk}

def Shows (h : Hunk) (line : Bytes) : Prop :=
  h.change.old? = some line ∨ h.change.new? = some line

theorem flatten_pieces (h : Hunk) : h.pieces.flatten = h.text := by
  obtain ⟨number, change⟩ := h
  cases change <;> simp [pieces, text_eq, shownLines]

theorem map_lineContent_pieces (h : Hunk) : h.pieces.map lineContent = h.records := by
  have less (line : Bytes) :
      lineContent ([0x3C, 0x20] ++ line) = [0x3C, 0x20] ++ lineContent line :=
    lineContent_append (by decide) line
  have greater (line : Bytes) :
      lineContent ([0x3E, 0x20] ++ line) = [0x3E, 0x20] ++ lineContent line :=
    lineContent_append (by decide) line
  have dashes : lineContent ([0x2D, 0x2D, 0x2D] ++ [newline]) = [0x2D, 0x2D, 0x2D] :=
    lineContent_line (by decide)
  have header := lineContent_line (newline_not_mem_header h)
  rw [pieces, records, List.map_cons, header]
  cases h.change with
  | added new => rw [List.map_singleton, greater]
  | deleted old => rw [List.map_singleton, less]
  | changed old new => rw [List.map_cons, List.map_cons, List.map_singleton, less, dashes, greater]

/-- The marks hold no line feed, so the pieces are lines if what is shown are lines. -/
theorem isLine_of_mem_pieces (lines : ∀ line, h.Shows line → IsLine line) :
    ∀ piece ∈ h.pieces, IsLine piece := by
  have header : IsLine ((Text.ofChars h.headerChars).encode ++ [newline]) :=
    .finished (newline_not_mem_header h)
  have dashes : IsLine ([0x2D, 0x2D, 0x2D] ++ [newline]) := .finished (by decide)
  have less {line : Bytes} (shows : h.Shows line) : IsLine ([0x3C, 0x20] ++ line) :=
    (lines line shows).append (by decide)
  have greater {line : Bytes} (shows : h.Shows line) : IsLine ([0x3E, 0x20] ++ line) :=
    (lines line shows).append (by decide)
  obtain ⟨number, change⟩ := h
  rw [pieces, List.forall_mem_cons]
  refine ⟨header, ?_⟩
  cases change with
  | added new => exact List.forall_mem_singleton.mpr (greater (.inr rfl))
  | deleted old => exact List.forall_mem_singleton.mpr (less (.inl rfl))
  | changed old new =>
      rw [List.forall_mem_cons, List.forall_mem_cons, List.forall_mem_singleton]
      exact ⟨less (.inl rfl), dashes, greater (.inr rfl)⟩

theorem finished_dashes : Finished [0x2D, 0x2D, 0x2D, newline] := finished_line [0x2D, 0x2D, 0x2D]

/-- A line that is shown has its line feed behind a mark, too. -/
theorem finished_marked_iff (lines : ∀ line, h.Shows line → IsLine line) (mark : Bytes)
    (shows : h.Shows line) : Finished (mark ++ line) ↔ Finished line :=
  finished_append_iff (lines line shows).ne_nil mark

/-- All pieces of a hunk have their line feeds if the lines have that it shows. -/
theorem finished_pieces_iff (lines : ∀ line, h.Shows line → IsLine line) :
    (∀ piece ∈ h.pieces, Finished piece) ↔ ∀ line, h.Shows line → Finished line := by
  obtain ⟨number, change⟩ := h
  rw [pieces, List.forall_mem_cons]
  cases change with
  | added new =>
      rw [List.forall_mem_singleton, finished_marked_iff lines _ (.inr rfl)]
      simp [finished_line, Shows, Change.old?, Change.new?]
  | deleted old =>
      rw [List.forall_mem_singleton, finished_marked_iff lines _ (.inl rfl)]
      simp [finished_line, Shows, Change.old?, Change.new?]
  | changed old new =>
      rw [List.forall_mem_cons, List.forall_mem_cons, List.forall_mem_singleton,
        finished_marked_iff lines _ (.inl rfl), finished_marked_iff lines _ (.inr rfl)]
      simp [finished_line, finished_dashes, Shows, Change.old?, Change.new?, or_imp, forall_and]

/-- Inside a hunk only the line in front of the dashes has something behind it. -/
theorem pairwise_pieces_iff (lines : ∀ line, h.Shows line → IsLine line) :
    h.pieces.Pairwise (fun piece _ => Finished piece) ↔
      ∀ old new, h.change = .changed old new → Finished old := by
  have header := finished_line (Text.ofChars h.headerChars).encode
  obtain ⟨number, change⟩ := h
  rw [pieces, List.pairwise_cons]
  cases change with
  | added new => simp [header]
  | deleted old => simp [header]
  | changed old new =>
      have front : Finished ([0x3C, 0x20] ++ old) ↔ Finished old :=
        finished_marked_iff lines _ (.inl rfl)
      simp only [List.cons_append, List.nil_append] at front
      simp [header, front, finished_dashes]

end Hunk

/-! ## The lines of a comparison's text -/

/-- The text of a comparison is broken: the last line of a file lacks its line feed, it is shown,
and something is written behind it. -/
def RunsIn (o : DiffOptions) (a b : Bytes) : Prop :=
  Unfinished a ∧ lineCount a ≤ lineCount b ∧
      o.DiffersAt (cutLines a) (cutLines b) (lineCount a - 1) ∨
    Unfinished b ∧ lineCount b < lineCount a ∧
      o.DiffersAt (cutLines a) (cutLines b) (lineCount b - 1)

variable {o : DiffOptions} {h h' : Hunk}

theorem isLine_of_shows (member : h ∈ diffLines o (cutLines a) (cutLines b)) :
    ∀ line, h.Shows line → IsLine line := by
  obtain ⟨i, -, before, after⟩ := sides_of_mem_diffLines member
  rintro line (shown | shown)
  · exact isLine_of_mem_cutLines (List.mem_of_getElem? (before.symm.trans shown))
  · exact isLine_of_mem_cutLines (List.mem_of_getElem? (after.symm.trans shown))

/-- Where numbers increase, a fact about each pair in order is one about the smaller number. -/
theorem pairwise_hunks_iff {hunks : List Hunk} {P : Hunk → Prop}
    (increasing : hunks.Pairwise fun h h' => h.number < h'.number) :
    hunks.Pairwise (fun h _ => P h) ↔ ∀ h ∈ hunks, ∀ h' ∈ hunks, h.number < h'.number → P h := by
  induction hunks with
  | nil => simp
  | cons first rest ih =>
      obtain ⟨least, increasing⟩ := List.pairwise_cons.mp increasing
      rw [List.pairwise_cons, ih increasing]
      constructor
      · rintro ⟨here, later⟩ h member h' member' smaller
        obtain first | inRest := List.mem_cons.mp member
        · obtain first' | inRest' := List.mem_cons.mp member'
          · rw [first, first'] at smaller
            exact absurd smaller (Int.lt_irrefl _)
          · exact first ▸ here h' inRest'
        · obtain first' | inRest' := List.mem_cons.mp member'
          · rw [first'] at smaller
            exact absurd smaller (Int.not_lt.mpr (Int.le_of_lt (least h inRest)))
          · exact later h inRest h' inRest' smaller
      · intro all
        exact ⟨fun h' member' => all first List.mem_cons_self h' (List.mem_cons_of_mem _ member')
            (least h' member'),
          fun h member h' member' => all h (List.mem_cons_of_mem _ member) h'
            (List.mem_cons_of_mem _ member')⟩

/-- The lines of a comparison's text can be read back exactly if every line in front of dashes has
its line feed, and every line that is shown in front of another hunk. -/
theorem map_lineContent_cutLines_text_iff :
    (cutLines ((diffLines o (cutLines a) (cutLines b)).flatMap Hunk.text)).map lineContent =
        (diffLines o (cutLines a) (cutLines b)).flatMap Hunk.records ↔
      (∀ h ∈ diffLines o (cutLines a) (cutLines b), ∀ old new, h.change = .changed old new →
        Finished old) ∧
      ∀ h ∈ diffLines o (cutLines a) (cutLines b), ∀ h' ∈ diffLines o (cutLines a) (cutLines b),
        h.number < h'.number → ∀ line, h.Shows line → Finished line := by
  have lines := fun h (member : h ∈ diffLines o (cutLines a) (cutLines b)) =>
    isLine_of_shows member
  have increasing := pairwise_diffLines o (cutLines a) (cutLines b)
  generalize diffLines o (cutLines a) (cutLines b) = hunks at *
  have text : hunks.flatMap Hunk.text = (hunks.flatMap Hunk.pieces).flatten := by
    rw [List.flatMap_def, List.flatMap_def, List.flatten_flatten, List.map_map]
    exact congrArg List.flatten (List.map_congr_left fun h _ => h.flatten_pieces.symm)
  have records : hunks.flatMap Hunk.records = (hunks.flatMap Hunk.pieces).map lineContent := by
    rw [List.map_flatMap]
    simp only [Hunk.map_lineContent_pieces]
  have isLine : ∀ piece ∈ hunks.flatMap Hunk.pieces, IsLine piece := by
    intro piece member
    obtain ⟨h, hunk, inside⟩ := List.mem_flatMap.mp member
    exact Hunk.isLine_of_mem_pieces (lines h hunk) piece inside
  -- There is always a piece behind a hunk that is not the last one.
  have between : hunks.Pairwise (fun h h' => ∀ x ∈ h.pieces, ∀ y ∈ h'.pieces, Finished x) ↔
      hunks.Pairwise (fun h _ => ∀ line, h.Shows line → Finished line) := by
    apply List.Pairwise.iff_of_mem
    intro h h' member _
    rw [← Hunk.finished_pieces_iff (lines h member)]
    refine forall₂_congr fun x _ => ⟨fun all => ?_, fun finished _ _ => finished⟩
    exact all _ List.mem_cons_self
  rw [text, records, map_lineContent_cutLines_flatten_iff isLine, List.pairwise_flatMap, between,
    pairwise_hunks_iff increasing]
  refine and_congr_left' (forall₂_congr fun h member => ?_)
  exact Hunk.pairwise_pieces_iff (lines h member)

/-- A hunk has a position at which the files differ, and shows the lines that are there. -/
theorem exists_position {old new : List Bytes} (member : h ∈ diffLines o old new) :
    ∃ i : Nat, h.number = i + 1 ∧ h.change.old? = old[i]? ∧ h.change.new? = new[i]? ∧
      o.DiffersAt old new i := by
  obtain ⟨i, number, before, after⟩ := sides_of_mem_diffLines member
  exact ⟨i, number, before, after, exists_mem_diffLines_iff.mp ⟨h, member, number⟩⟩

theorem exists_hunk {old new : List Bytes} (differs : o.DiffersAt old new i) :
    ∃ h ∈ diffLines o old new, h.number = i + 1 ∧ h.change.old? = old[i]? ∧
      h.change.new? = new[i]? := by
  obtain ⟨h, member, number⟩ := exists_mem_diffLines_iff.mpr differs
  obtain ⟨i', number', before, after⟩ := sides_of_mem_diffLines member
  obtain rfl : i = i' := by omega
  exact ⟨h, member, number, before, after⟩

/-- The last line of a file that lacks its line feed. -/
theorem Unfinished.exists_last (unfinished : Unfinished data) :
    ∃ i line, i + 1 = lineCount data ∧ (cutLines data)[i]? = some line ∧ ¬ Finished line := by
  have counts : data ≠ [] ∧ data.getLast? ≠ some newline := unfinished
  have positive : 0 < lineCount data := by
    rw [lineCount, if_pos counts]
    omega
  obtain ⟨line, found, lacks⟩ :=
    exists_not_finished_iff.mpr ⟨unfinished, Nat.sub_add_cancel positive⟩
  exact ⟨_, line, Nat.sub_add_cancel positive, found, lacks⟩

/-- In a broken text a line without its line feed stands in front of dashes or of another hunk. -/
theorem not_finished_of_runsIn (broken : RunsIn o a b) :
    (∃ h ∈ diffLines o (cutLines a) (cutLines b), ∃ old new, h.change = .changed old new ∧
        ¬ Finished old) ∨
      ∃ h ∈ diffLines o (cutLines a) (cutLines b), ∃ h' ∈ diffLines o (cutLines a) (cutLines b),
        h.number < h'.number ∧ ∃ line, h.Shows line ∧ ¬ Finished line := by
  obtain ⟨unfinished, shorter, differs⟩ | ⟨unfinished, shorter, differs⟩ := broken
  · obtain ⟨i, old, last, found, lacks⟩ := unfinished.exists_last
    rw [← last, Nat.add_sub_cancel] at differs
    obtain ⟨h, member, -, before, after⟩ := exists_hunk differs
    have within : i < (cutLines b).length := by
      rw [length_cutLines]
      omega
    rw [found] at before
    rw [List.getElem?_eq_getElem within] at after
    refine .inl ⟨h, member, old, (cutLines b)[i], ?_, lacks⟩
    cases change : h.change <;> rw [change] at before after <;> cases before <;> cases after
    rfl
  · obtain ⟨i, new, last, found, lacks⟩ := unfinished.exists_last
    rw [← last, Nat.add_sub_cancel] at differs
    obtain ⟨h, member, number, -, after⟩ := exists_hunk differs
    -- The first file has a line where the second one has ended.
    have ended : o.DiffersAt (cutLines a) (cutLines b) (i + 1) := by
      refine ⟨?_, .inr (.inl ?_)⟩ <;> simp only [length_cutLines] <;> omega
    obtain ⟨h', member', number', -, -⟩ := exists_hunk ended
    exact .inr ⟨h, member, h', member', by omega, new, .inr (after.trans found), lacks⟩

/-- A text that is not broken has nothing behind a line without its line feed. -/
theorem finished_of_not_runsIn (whole : ¬ RunsIn o a b) :
    (∀ h ∈ diffLines o (cutLines a) (cutLines b), ∀ old new, h.change = .changed old new →
        Finished old) ∧
      ∀ h ∈ diffLines o (cutLines a) (cutLines b), ∀ h' ∈ diffLines o (cutLines a) (cutLines b),
        h.number < h'.number → ∀ line, h.Shows line → Finished line := by
  have known {i : Nat} (differs : o.DiffersAt (cutLines a) (cutLines b) i) :
      i < max (lineCount a) (lineCount b) := by
    simpa only [length_cutLines] using differs.1
  refine ⟨fun h member old new changed => ?_, fun h member h' member' smaller line shown => ?_⟩
  · refine Classical.byContradiction fun lacks => whole (.inl ?_)
    obtain ⟨i, -, before, after, differs⟩ := exists_position member
    rw [changed] at before after
    obtain ⟨unfinished, last⟩ := exists_not_finished_iff.mp ⟨old, before.symm, lacks⟩
    have within : i < (cutLines b).length := (List.getElem?_eq_some_iff.mp after.symm).1
    rw [length_cutLines] at within
    rw [← last, Nat.add_sub_cancel]
    exact ⟨unfinished, within, differs⟩
  · refine Classical.byContradiction fun lacks => whole ?_
    obtain ⟨i, number, before, after, differs⟩ := exists_position member
    obtain ⟨j, number', -, -, differs'⟩ := exists_position member'
    have later := known differs'
    obtain shown | shown := shown
    · obtain ⟨unfinished, last⟩ := exists_not_finished_iff.mp ⟨line, before.symm.trans shown, lacks⟩
      refine .inl ⟨unfinished, by omega, ?_⟩
      rwa [← last, Nat.add_sub_cancel]
    · obtain ⟨unfinished, last⟩ := exists_not_finished_iff.mp ⟨line, after.symm.trans shown, lacks⟩
      refine .inr ⟨unfinished, by omega, ?_⟩
      rwa [← last, Nat.add_sub_cancel]

/-- The text of a comparison, cut into lines, consists of the lines of the hunks in order, except
if it is broken: if the last line of a file lacks its line feed, is shown, and something is written
behind it. -/
theorem text_records_iff {t : FileTree} {oldName newName : Text}
    (opened : t.openRaw oldName = .ok a) (opened' : t.openRaw newName = .ok b) (o : DiffOptions) :
    ∃ compared, compareFiles t o oldName newName = .ok compared ∧
      ((cutLines compared.text).map lineContent = compared.hunks.flatMap Hunk.records ↔
        ¬ RunsIn o a b) := by
  refine ⟨_, compareFiles_of_opened opened opened', map_lineContent_cutLines_text_iff.trans ?_⟩
  constructor
  · rintro ⟨inside, between⟩ broken
    obtain dashes | follows := not_finished_of_runsIn broken
    · obtain ⟨h, member, old, new, changed, lacks⟩ := dashes
      exact lacks (inside h member old new changed)
    · obtain ⟨h, member, h', member', smaller, line, shown, lacks⟩ := follows
      exact lacks (between h member h' member' smaller line shown)
  · exact finished_of_not_runsIn

/-- The first file lacks its last line feed, but nothing stands behind its last line. -/
theorem text_records_iff_longer :
    let t : FileTree := [("a", .file {} (Text.encode "p\nx\nq")),
      ("b", .file {} (Text.encode "p\nr\n"))]
    ∃ compared, compareFiles t {} "a" "b" = .ok compared ∧
      compared.text = Text.encode "2c2\n< x\n---\n> r\n3d2\n< q" ∧
      (cutLines compared.text).map lineContent = compared.hunks.flatMap Hunk.records := by
  intro t
  have opened : t.openRaw "a" = .ok (Text.encode "p\nx\nq") := by cbv
  have opened' : t.openRaw "b" = .ok (Text.encode "p\nr\n") := by cbv
  have text : (compareFiles t {} "a" "b").map Comparison.text =
      .ok (Text.encode "2c2\n< x\n---\n> r\n3d2\n< q") := by cbv
  have whole : ¬ RunsIn {} (Text.encode "p\nx\nq") (Text.encode "p\nr\n") := by
    rintro (⟨-, shorter, -⟩ | ⟨unfinished, -⟩)
    · exact absurd shorter (by decide)
    · exact unfinished.2 rfl
  obtain ⟨compared, known, decides⟩ := text_records_iff opened opened' {}
  rw [known] at text
  exact ⟨compared, known, Except.ok.inj text, decides.mpr whole⟩

/-- The line of the first file lacks its line feed, and the dashes are written behind it. -/
theorem dashes_behind_line :
    let t : FileTree := [("a", .file {} (Text.encode "x")), ("b", .file {} (Text.encode "y\n"))]
    ∃ compared, compareFiles t {} "a" "b" = .ok compared ∧
      (cutLines compared.text).map lineContent = ["1c1", "< x---", "> y"].map (Text.encode ·) ∧
      compared.hunks.flatMap Hunk.records = ["1c1", "< x", "---", "> y"].map (Text.encode ·) := by
  intro t
  have lines : (compareFiles t {} "a" "b").map (fun c => (cutLines c.text).map lineContent) =
      .ok (["1c1", "< x---", "> y"].map (Text.encode ·)) := by cbv
  have records : (compareFiles t {} "a" "b").map (·.hunks.flatMap Hunk.records) =
      .ok (["1c1", "< x", "---", "> y"].map (Text.encode ·)) := by cbv
  cases compared : compareFiles t {} "a" "b" with
  | error fault =>
      rw [compared] at lines
      cases lines
  | ok c =>
      rw [compared] at lines records
      exact ⟨c, rfl, Except.ok.inj lines, Except.ok.inj records⟩

end Bytewise

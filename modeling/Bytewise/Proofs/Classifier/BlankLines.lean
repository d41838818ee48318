import Bytewise.Proofs.Classifier.Accounting

/-!
# Blank lines

A line is blank if nothing but blanks stand in it and it does not start inside a block comment
(`Markers.blank_lines_exactly`). Such a line in a block comment is comment, and in a string it is
blank like any other, because blanks are passed over before the string is looked at.

What has to be shown is that a byte other than a blank cannot go unnoticed, in whatever mode it is
met: the step that looks at it leaves a scan that no longer takes its line for blank, and so does
the step whose marker takes it (`Scan.lineClass_run_ne_blank`).
-/

namespace Bytewise

def isBlankLine (line : Bytes) : Bool := (lineContent line).all isBlankByte

def linesBefore (data : Bytes) (i : Nat) : Bytes := ((cutLines data).take i).flatten

variable {m : Markers} {carry : Carry} {line body rest data : Bytes}

theorem linesBefore_line (noFeed : newline ∉ body) (rest : Bytes) (i : Nat) :
    linesBefore (body ++ newline :: rest) (i + 1) = body ++ newline :: linesBefore rest i := by
  rw [linesBefore, cutLines_line noFeed, List.take_succ_cons, List.flatten_cons, List.append_assoc,
    List.singleton_append, linesBefore]

theorem cutLines_linesBefore (data : Bytes) (i : Nat) :
    cutLines (linesBefore data i) = (cutLines data).take i := by
  induction data using linesInduction generalizing i with
  | nil => simp [linesBefore]
  | tail body nonempty noFeed =>
      cases i with
      | zero => rfl
      | succ i => simp [linesBefore, cutLines_tail nonempty noFeed]
  | line body rest noFeed ih =>
      cases i with
      | zero => rfl
      | succ i =>
          rw [linesBefore_line noFeed, cutLines_line noFeed, cutLines_line noFeed, ih,
            List.take_succ_cons]

namespace Scan

variable {s : Scan} {b : UInt8} {taken : Nat}

/-! ## Nothing but blanks goes unnoticed -/

/-- The step at a byte that is no blank leaves a scan that does not take its line for blank. -/
theorem lineClass_step_ne_blank (visible : isBlankByte b = false) :
    (s.step m b rest).1.lineClass ≠ .blank := by
  have rule := step_rule m s b rest
  generalize s.step m b rest = next at rule
  cases rule with
  | lineFeed feed => exact absurd feed (ne_newline_of_visible visible)
  | blank _ blank => simp [visible] at blank
  | @inString quote _ mode =>
      by_cases closes : b = quote ∧ s.previous ≠ backslash
      · simp [lineClass, closes]
      · simp [lineClass, closes, mode]
  | openString _ _ _ => simp [lineClass]
  | openBlock _ _ _ _ => simp [lineClass]
  | openLine _ _ _ _ _ => simp [lineClass]
  | inCode _ mode _ _ _ => simp [lineClass, mode]
  | closeBlock _ _ _ => cases s.hasCode <;> simp [lineClass]
  | inBlock _ mode _ => simp [lineClass, mode]
  | inLine _ mode => simp [lineClass, mode]

/-- A line that was not taken for blank will not be taken for blank. -/
theorem lineClass_step_ne_blank_of_ne (ordinary : b ≠ newline) (traced : s.lineClass ≠ .blank) :
    (s.step m b rest).1.lineClass ≠ .blank := by
  cases visible : isBlankByte b with
  | true => rwa [(Rule.blank ordinary visible).step_eq]
  | false => exact lineClass_step_ne_blank visible

/-- A marker takes bytes only at a byte that is no blank. -/
theorem lineClass_step_ne_blank_of_taken (takes : (s.step m b rest).2 ≠ 0) :
    (s.step m b rest).1.lineClass ≠ .blank := by
  cases visible : isBlankByte b with
  | false => exact lineClass_step_ne_blank visible
  | true =>
      by_cases feed : b = newline
      · exact absurd (congrArg Prod.snd (Rule.lineFeed feed).step_eq) takes
      · exact absurd (congrArg Prod.snd (Rule.blank feed visible).step_eq) takes

/-- The scan within a line notices a byte that is no blank. The bytes that a marker has still to
take do not have to be looked at, because the marker has been noticed. -/
theorem lineClass_run_ne_blank (noFeed : newline ∉ body)
    (pending : taken ≠ 0 → s.lineClass ≠ .blank)
    (traced : s.lineClass ≠ .blank ∨ ∃ b ∈ body, isBlankByte b = false) :
    (run m taken s body).lineClass ≠ .blank := by
  induction body generalizing taken s with
  | nil => exact traced.resolve_right (by simp)
  | cons b body ih =>
      rw [List.mem_cons, not_or] at noFeed
      cases taken with
      | succ taken =>
          have noticed : s.lineClass ≠ .blank := pending (Nat.succ_ne_zero taken)
          exact ih (s := { s with previous := b }) noFeed.2 (fun _ => noticed) (.inl noticed)
      | zero =>
          apply ih (s := { (s.step m b body).1 with previous := b }) noFeed.2
          · exact lineClass_step_ne_blank_of_taken
          · obtain before | ⟨c, member, visible⟩ := traced
            · exact .inl (lineClass_step_ne_blank_of_ne (Ne.symm noFeed.1) before)
            · obtain rfl | later := List.mem_cons.mp member
              · exact .inl (lineClass_step_ne_blank visible)
              · exact .inr ⟨c, later, visible⟩

/-- Blanks are passed over in every mode. -/
theorem run_blanks_append (noFeed : newline ∉ body) (blank : body.all isBlankByte = true)
    (s : Scan) (rest : Bytes) :
    run m 0 s (body ++ rest) = run m 0 { s with previous := body.getLastD s.previous } rest := by
  apply run_idle
  intro b tail ending p
  have member : b ∈ body := ending.subset List.mem_cons_self
  have ordinary : b ≠ newline := fun feed => noFeed (feed ▸ member)
  exact (Rule.blank ordinary (List.all_eq_true.mp blank b member)).step_eq

theorem run_blanks (noFeed : newline ∉ body) (blank : body.all isBlankByte = true) (s : Scan) :
    run m 0 s body = { s with previous := body.getLastD s.previous } := by
  have passed := run_blanks_append (m := m) noFeed blank s []
  rwa [List.append_nil] at passed

end Scan

/-! ## One line -/

namespace Markers

theorem newline_not_mem_lineContent (line : Bytes) : newline ∉ lineContent line := by
  intro feed
  simpa using List.all_eq_true.mp List.all_takeWhile newline feed

/-- The class of a line of blanks is that of the mode in which it starts. -/
theorem scanLine_of_isBlankLine (blank : isBlankLine line = true) :
    (m.scanLine carry line).1 = if carry = .blockComment then .comment else .blank := by
  have passed := Scan.run_blanks (m := m) (newline_not_mem_lineContent line) blank
  rw [scanLine, passed]
  cases carry <;> rfl

theorem scanLine_ne_blank (inked : isBlankLine line = false) :
    (m.scanLine carry line).1 ≠ .blank := by
  have visible : ∃ b ∈ lineContent line, isBlankByte b = false := by
    simpa [isBlankLine, List.all_eq_false] using inked
  exact Scan.lineClass_run_ne_blank (newline_not_mem_lineContent line) (fun more => absurd rfl more)
    (.inr visible)

theorem scanLine_of_not_isBlankLine (inked : isBlankLine line = false) :
    (m.scanLine carry line).1 = .code ∨ (m.scanLine carry line).1 = .comment := by
  have noticed : (m.scanLine carry line).1 ≠ .blank := scanLine_ne_blank inked
  cases counts : (m.scanLine carry line).1 with
  | code => exact .inl rfl
  | comment => exact .inr rfl
  | blank => exact absurd counts noticed

theorem scanLine_eq_blank_iff :
    (m.scanLine carry line).1 = .blank ↔ isBlankLine line = true ∧ carry ≠ .blockComment := by
  cases blank : isBlankLine line with
  | false => simpa using scanLine_ne_blank blank
  | true =>
      rw [scanLine_of_isBlankLine blank]
      split
      next inBlock => simp [inBlock]
      next outside => simp [outside]

/-! ## All lines -/

def carryAfter (m : Markers) (carry : Carry) : List Bytes → Carry
  | [] => carry
  | line :: rest => m.carryAfter (m.scanLine carry line).2 rest

theorem lineClasses_take (m : Markers) (carry : Carry) (lines : List Bytes) (i : Nat) :
    m.lineClasses carry (lines.take i) = (m.lineClasses carry lines).take i := by
  induction lines generalizing carry i with
  | nil => simp [lineClasses]
  | cons line lines ih =>
      cases i with
      | zero => rfl
      | succ i => rw [List.take_succ_cons, lineClasses, lineClasses, List.take_succ_cons, ih]

/-- The class of a line comes of the carry with which it starts. -/
theorem getElem?_lineClasses (m : Markers) (carry : Carry) (lines : List Bytes) (i : Nat) :
    (m.lineClasses carry lines)[i]? =
      lines[i]?.map fun line => (m.scanLine (m.carryAfter carry (lines.take i)) line).1 := by
  induction lines generalizing carry i with
  | nil => rfl
  | cons line lines ih =>
      cases i with
      | zero => rfl
      | succ i => exact ih (m.scanLine carry line).2 i

/-- The mode in which the scan of a file comes to a line is that of the line's carry. -/
theorem mode_run_linesBefore (oneLine : m.OneLine) (carry : Carry) {previous : UInt8}
    (unescaped : previous ≠ Scan.backslash) (tally : LineTally) {i : Nat}
    (inside : i < (cutLines data).length) :
    (Scan.run m 0 { mode := carry.mode, previous, tally } (linesBefore data i)).mode =
      (m.carryAfter carry ((cutLines data).take i)).mode := by
  induction data using linesInduction generalizing carry previous tally i with
  | nil => simp at inside
  | tail body nonempty noFeed =>
      obtain rfl : i = 0 := by
        rw [cutLines_tail nonempty noFeed, List.length_singleton] at inside
        omega
      rfl
  | line body rest noFeed ih =>
      rw [cutLines_line noFeed] at inside ⊢
      cases i with
      | zero => rfl
      | succ i =>
          have later : i < (cutLines rest).length := by simpa using inside
          rw [linesBefore_line noFeed, Scan.run_line oneLine,
            Scan.run_content noFeed carry unescaped, Scan.nextLine_eq, List.take_succ_cons,
            carryAfter, scanLine, lineContent_line noFeed]
          exact ih _ (by decide) _ later

/-- The scan comes to a line in a block comment if the lines before hand one on. -/
theorem inBlock_linesBefore_iff (oneLine : m.OneLine) {i : Nat}
    (inside : i < (cutLines data).length) :
    (Scan.run m 0 {} (linesBefore data i)).mode = .blockComment ↔
      m.carryAfter .code ((cutLines data).take i) = .blockComment := by
  have start : (Scan.run m 0 {} (linesBefore data i)).mode =
      (m.carryAfter .code ((cutLines data).take i)).mode :=
    mode_run_linesBefore oneLine .code (by decide) {} inside
  rw [start]
  cases m.carryAfter .code ((cutLines data).take i) <;> simp [Carry.mode]

/-- No more lines are counted as blank than hold nothing but blanks. -/
theorem count_blank_lineClasses_le (m : Markers) (carry : Carry) (lines : List Bytes) :
    (m.lineClasses carry lines).count .blank ≤ lines.countP isBlankLine := by
  induction lines generalizing carry with
  | nil => exact Nat.le_refl 0
  | cons line lines ih =>
      have others := ih (m.scanLine carry line).2
      rw [lineClasses, List.count_cons, List.countP_cons]
      by_cases blank : isBlankLine line = true
      · rw [if_pos blank]
        split <;> omega
      · have here : (m.scanLine carry line).1 ≠ .blank := scanLine_ne_blank (by simpa using blank)
        rw [if_neg (by simpa using here), if_neg blank]
        exact others

/-! ## Markers that open no block -/

/-- A scan does not come into a block comment that cannot be opened. -/
theorem mode_run_ne_blockComment (nonempty : m.blockStart ≠ [])
    (hidden : canOpen m.blockStart = false) {s : Scan} (outside : s.mode ≠ .blockComment)
    (taken : Nat) (body : Bytes) : (Scan.run m taken s body).mode ≠ .blockComment := by
  induction body generalizing taken s with
  | nil => exact outside
  | cons b body ih =>
      cases taken with
      | succ taken => exact ih (s := { s with previous := b }) outside taken
      | zero =>
          refine ih (fun entered => ?_) _
          have opens := Scan.canOpen_of_step_block nonempty (fun block => absurd block outside)
            entered
          rw [hidden] at opens
          cases opens

/-- A line within which no block comment can be opened hands on none. -/
theorem scanLine_carry_ne_blockComment (nonempty : m.blockStart ≠ [])
    (hidden : canOpen m.blockStart = false) (outside : carry ≠ .blockComment) (line : Bytes) :
    (m.scanLine carry line).2 ≠ .blockComment := by
  have start : carry.mode ≠ .blockComment := by
    cases carry with
    | blockComment => exact absurd rfl outside
    | _ => nofun
  have ends := mode_run_ne_blockComment nonempty hidden (s := { mode := carry.mode }) start 0
    (lineContent line)
  rw [scanLine]
  dsimp only
  intro handed
  cases mode : (Scan.run m 0 { mode := carry.mode } (lineContent line)).mode with
  | blockComment => exact ends mode
  | _ =>
      rw [mode] at handed
      cases handed

/-- Where no block comment can be opened, every line of blanks is counted as blank. -/
theorem count_blank_lineClasses (nonempty : m.blockStart ≠ [])
    (hidden : canOpen m.blockStart = false) (outside : carry ≠ .blockComment)
    (lines : List Bytes) :
    (m.lineClasses carry lines).count .blank = lines.countP isBlankLine := by
  induction lines generalizing carry with
  | nil => rfl
  | cons line lines ih =>
      have others := ih (scanLine_carry_ne_blockComment nonempty hidden outside line)
      have here : (m.scanLine carry line).1 = .blank ↔ isBlankLine line = true := by
        simp [scanLine_eq_blank_iff, outside]
      rw [lineClasses, List.count_cons, List.countP_cons, others]
      simp only [beq_iff_eq, here]

/-! ## Whole files -/

/-- Every line of a file is counted in a class of its own. The class is blank exactly if the line
holds nothing but blanks and the scan does not come to it in a block comment; in a block comment a
line of blanks is comment; and a line that holds anything else is code or comment. So no more lines
are counted as blank than hold nothing but blanks, and exactly as many if the block marker begins
with a quote or a blank, because then no block comment is ever opened. -/
theorem blank_lines_exactly (oneLine : m.OneLine) (data : Bytes) :
    let classes := m.lineClasses .code (cutLines data)
    m.classify {} data = LineTally.add {} classes ∧
    (∀ i, m.classify {} (linesBefore data i) = LineTally.add {} (classes.take i)) ∧
    (∀ i line, (cutLines data)[i]? = some line → ∃ c, classes[i]? = some c ∧
      (c = .blank ↔ isBlankLine line = true ∧
        (Scan.run m 0 {} (linesBefore data i)).mode ≠ .blockComment) ∧
      (isBlankLine line = true →
        (Scan.run m 0 {} (linesBefore data i)).mode = .blockComment → c = .comment) ∧
      (isBlankLine line = false → c = .code ∨ c = .comment)) ∧
    (m.classify {} data).blank ≤ (cutLines data).countP isBlankLine ∧
    (∀ b tail, m.blockStart = b :: tail → Scan.isQuote b = true ∨ isBlankByte b = true →
      (m.classify {} data).blank = (cutLines data).countP isBlankLine) := by
  intro classes
  have byLines := classify_eq_add_lineClasses oneLine {}
  have counted : (m.classify {} data).blank = classes.count .blank := by
    rw [byLines data]
    exact Nat.zero_add _
  refine ⟨byLines data, fun i => ?_, fun i line found => ?_, ?_, fun b tail shape hides => ?_⟩
  · rw [byLines, cutLines_linesBefore, lineClasses_take]
  · obtain ⟨inside, -⟩ := List.getElem?_eq_some_iff.mp found
    let carry := m.carryAfter .code ((cutLines data).take i)
    have inBlock := inBlock_linesBefore_iff oneLine inside
    refine ⟨(m.scanLine carry line).1, ?_, ?_, fun blank block => ?_, scanLine_of_not_isBlankLine⟩
    · rw [getElem?_lineClasses, found]
      rfl
    · rw [scanLine_eq_blank_iff, ne_eq, ne_eq, inBlock]
    · rw [scanLine_of_isBlankLine blank, if_pos (inBlock.mp block)]
  · rw [counted]
    exact count_blank_lineClasses_le m .code (cutLines data)
  · have nonempty : m.blockStart ≠ [] := by simp [shape]
    have hidden : canOpen m.blockStart = false := by
      obtain quote | blank := hides
      · simp [shape, canOpen, quote]
      · simp [shape, canOpen, blank]
    have outside : Carry.code ≠ .blockComment := by simp
    rw [counted]
    exact count_blank_lineClasses nonempty hidden outside (cutLines data)

/-- Of two lines that hold one space each, the one in a block comment is comment. -/
theorem blank_lines_exactly_slashes :
    let m : Markers := ⟨Text.encode "//", Text.encode "/*", Text.encode "*/"⟩
    let data := Text.encode "/*\n \n*/\n \n"
    m.OneLine ∧ (m.lineClasses .code (cutLines data))[1]? = some .comment ∧
      (m.lineClasses .code (cutLines data))[3]? = some .blank ∧ (m.classify {} data).blank ≤ 2 := by
  intro m data
  have oneLine : m.OneLine := ⟨by decide, by decide, by decide⟩
  obtain ⟨-, -, classes, atMost, -⟩ := blank_lines_exactly oneLine data
  obtain ⟨c, inBlock, -, comment, -⟩ := classes 1 (Text.encode " \n") (by decide)
  obtain ⟨c', outside, blank, -⟩ := classes 3 (Text.encode " \n") (by decide)
  refine ⟨oneLine, ?_, ?_, atMost⟩
  · rw [inBlock, comment (by decide) (by decide)]
  · rw [outside, blank.mpr (by decide)]

end Markers

end Bytewise

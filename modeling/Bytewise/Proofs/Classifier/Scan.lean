import Bytewise.Source.Classifier

/-!
# The scan across a stretch of bytes

A step of the scan looks ahead for a marker and passes over the whole marker at once, so the scan of
two stretches of bytes is not the scan of one after the scan of the other. `Rule` says once what a
step can do; every later statement about steps is a case analysis on it. `across` is the scan of a
stretch with the bytes that follow it in view, and `run_append` ties it to the scan of the whole.

The main statement is `across_of_landed`: a scan that comes to the end of a stretch with no marker
pending has used nothing of what follows. Lines and the regions of comments and strings are such
stretches.
-/

namespace Bytewise

namespace Scan

variable {m : Markers} {s : Scan} {b : UInt8} {front rest : Bytes} {taken : Nat}

@[simp] theorem isBlankByte_newline : isBlankByte newline = true := rfl

theorem ne_newline_of_visible (visible : isBlankByte b = false) : b ≠ newline := by
  rintro rfl
  simp at visible

/-! ## The rules of a step -/

/-- The rule that a step takes, with everything that makes it the first one to apply. -/
inductive Rule (m : Markers) (s : Scan) (b : UInt8) (rest : Bytes) : Scan × Nat → Prop
  | lineFeed (feed : b = newline) : Rule m s b rest (s.nextLine, 0)
  | blank (ordinary : b ≠ newline) (blank : isBlankByte b = true) : Rule m s b rest (s, 0)
  | inString {quote : UInt8} (visible : isBlankByte b = false) (mode : s.mode = .string quote) :
      Rule m s b rest
        ({ s with
            hasCode := true
            mode := if b = quote ∧ s.previous ≠ backslash then .code else s.mode }, 0)
  | openString (visible : isBlankByte b = false) (mode : s.mode = .code)
      (quoted : isQuote b = true) :
      Rule m s b rest ({ s with mode := .string b, hasCode := true }, 0)
  | openBlock (visible : isBlankByte b = false) (mode : s.mode = .code)
      (unquoted : isQuote b = false) (found : m.blockStart <+: b :: rest) :
      Rule m s b rest
        ({ s with mode := .blockComment, hasComment := true }, m.blockStart.length - 1)
  | openLine (visible : isBlankByte b = false) (mode : s.mode = .code)
      (unquoted : isQuote b = false) (noBlock : ¬ m.blockStart <+: b :: rest)
      (found : m.line <+: b :: rest) :
      Rule m s b rest ({ s with mode := .lineComment, hasComment := true }, m.line.length - 1)
  | inCode (visible : isBlankByte b = false) (mode : s.mode = .code)
      (unquoted : isQuote b = false) (noBlock : ¬ m.blockStart <+: b :: rest)
      (noLine : ¬ m.line <+: b :: rest) : Rule m s b rest ({ s with hasCode := true }, 0)
  | closeBlock (visible : isBlankByte b = false) (mode : s.mode = .blockComment)
      (found : m.blockEnd <+: b :: rest) :
      Rule m s b rest ({ s with mode := .code, hasComment := true }, m.blockEnd.length - 1)
  | inBlock (visible : isBlankByte b = false) (mode : s.mode = .blockComment)
      (absent : ¬ m.blockEnd <+: b :: rest) : Rule m s b rest (s, 0)
  | inLine (visible : isBlankByte b = false) (mode : s.mode = .lineComment) : Rule m s b rest (s, 0)

theorem step_rule (m : Markers) (s : Scan) (b : UInt8) (rest : Bytes) :
    Rule m s b rest (s.step m b rest) := by
  unfold step
  by_cases feed : b = newline
  · rw [if_pos feed]
    exact .lineFeed feed
  rw [if_neg feed]
  cases visible : isBlankByte b with
  | true => exact .blank feed visible
  | false =>
      rw [if_neg (by simp)]
      simp only [List.isPrefixOf_iff_prefix]
      cases mode : s.mode with
      | string quote => simpa only [mode] using Rule.inString visible mode
      | code =>
          by_cases quoted : isQuote b = true
          · rw [if_pos quoted]
            exact .openString visible mode quoted
          have unquoted : isQuote b = false := by simpa using quoted
          rw [if_neg quoted]
          by_cases block : m.blockStart <+: b :: rest
          · rw [if_pos block]
            exact .openBlock visible mode unquoted block
          rw [if_neg block]
          by_cases line : m.line <+: b :: rest
          · rw [if_pos line]
            exact .openLine visible mode unquoted block line
          · rw [if_neg line]
            simpa only [mode] using Rule.inCode visible mode unquoted block line
      | blockComment =>
          by_cases found : m.blockEnd <+: b :: rest
          · rw [if_pos found]
            exact .closeBlock visible mode found
          · rw [if_neg found]
            exact .inBlock visible mode found
      | lineComment => exact .inLine visible mode

/-- The rules exclude each other, so finding one that applies computes the step. -/
theorem Rule.step_eq {next : Scan × Nat} (rule : Rule m s b rest next) :
    s.step m b rest = next := by
  cases rule with
  | lineFeed feed => simp [step, feed]
  | blank ordinary blank => simp [step, ordinary, blank]
  | inString visible mode => simp [step, ne_newline_of_visible visible, visible, mode]
  | openString visible mode quoted =>
      simp [step, ne_newline_of_visible visible, visible, mode, quoted]
  | openBlock visible mode unquoted found =>
      simp [step, ne_newline_of_visible visible, visible, mode, unquoted, found]
  | openLine visible mode unquoted noBlock found =>
      simp [step, ne_newline_of_visible visible, visible, mode, unquoted, noBlock, found]
  | inCode visible mode unquoted noBlock noLine =>
      simp [step, ne_newline_of_visible visible, visible, mode, unquoted, noBlock, noLine]
  | closeBlock visible mode found =>
      simp [step, ne_newline_of_visible visible, visible, mode, found]
  | inBlock visible mode absent =>
      simp [step, ne_newline_of_visible visible, visible, mode, absent]
  | inLine visible mode => simp [step, ne_newline_of_visible visible, visible, mode]

/-- A step that takes no more than a stretch holds would go the same way if the stretch were all
there is: a marker that was found fits into the stretch, and one that was not found cannot appear
when there is less to see. -/
theorem step_append_of_taken_le (fits : (s.step m b (front ++ rest)).2 ≤ front.length) :
    s.step m b (front ++ rest) = s.step m b front := by
  have inside {marker : Bytes} (found : marker <+: b :: (front ++ rest))
      (short : marker.length - 1 ≤ front.length) : marker <+: b :: front := by
    have shorter : marker.length ≤ (b :: front).length := by
      rw [List.length_cons]
      omega
    exact List.prefix_of_prefix_length_le found (List.prefix_append (b :: front) rest) shorter
  have outside {marker : Bytes} (absent : ¬ marker <+: b :: (front ++ rest)) :
      ¬ marker <+: b :: front :=
    fun found => absent (found.trans (List.prefix_append (b :: front) rest))
  have rule := step_rule m s b (front ++ rest)
  generalize s.step m b (front ++ rest) = next at rule fits
  refine (Rule.step_eq ?_).symm
  cases rule with
  | lineFeed feed => exact .lineFeed feed
  | blank ordinary blank => exact .blank ordinary blank
  | inString visible mode => exact .inString visible mode
  | openString visible mode quoted => exact .openString visible mode quoted
  | openBlock visible mode unquoted found =>
      exact .openBlock visible mode unquoted (inside found fits)
  | openLine visible mode unquoted noBlock found =>
      exact .openLine visible mode unquoted (outside noBlock) (inside found fits)
  | inCode visible mode unquoted noBlock noLine =>
      exact .inCode visible mode unquoted (outside noBlock) (outside noLine)
  | closeBlock visible mode found => exact .closeBlock visible mode (inside found fits)
  | inBlock visible mode absent => exact .inBlock visible mode (outside absent)
  | inLine visible mode => exact .inLine visible mode

/-! ## Stretches -/

/-- Scan a stretch of bytes with the bytes behind it in view: the scan at its end, and how many of
the bytes behind it a marker has already taken. -/
def across (m : Markers) (rest : Bytes) : Nat → Scan → Bytes → Scan × Nat
  | taken, s, [] => (s, taken)
  | taken + 1, s, b :: front => across m rest taken { s with previous := b } front
  | 0, s, b :: front =>
    let next := s.step m b (front ++ rest)
    across m rest next.2 { next.1 with previous := b } front

-- Scans are opened along the bytes everywhere below.
attribute [local simp] run across

theorem run_append (m : Markers) (taken : Nat) (s : Scan) (front rest : Bytes) :
    run m taken s (front ++ rest) =
      run m (across m rest taken s front).2 (across m rest taken s front).1 rest := by
  induction front generalizing taken s with
  | nil => simp
  | cons b front ih =>
      cases taken with
      | zero => simp [ih]
      | succ taken => simp [ih]

theorem taken_le_of_landed (landed : (across m rest taken s front).2 = 0) :
    taken ≤ front.length := by
  induction front generalizing taken s with
  | nil => exact Nat.le_of_eq landed
  | cons b front ih =>
      cases taken with
      | zero => exact Nat.zero_le _
      | succ taken => exact Nat.succ_le_succ (ih landed)

/-- A scan that comes to the end of a stretch with nothing pending is the scan of the stretch alone.
-/
theorem across_of_landed (landed : (across m rest taken s front).2 = 0) :
    across m rest taken s front = (run m taken s front, 0) := by
  induction front generalizing taken s with
  | nil =>
      rw [across] at landed ⊢
      rw [run]
      exact Prod.ext rfl landed
  | cons b front ih =>
      cases taken with
      | succ taken => exact ih landed
      | zero =>
          have fits : (s.step m b (front ++ rest)).2 ≤ front.length := taken_le_of_landed landed
          have stepEq := step_append_of_taken_le fits
          simp only [across, run, stepEq] at landed ⊢
          exact ih landed

/-- The scan behind a stretch at whose end nothing is pending. -/
theorem run_append_of_landed (landed : (across m rest taken s front).2 = 0) :
    run m taken s (front ++ rest) = run m 0 (run m taken s front) rest := by
  rw [run_append, across_of_landed landed]

/-- The bytes that a marker has taken change nothing but the byte before the cursor. -/
theorem run_taken (m : Markers) (s : Scan) (front rest : Bytes) :
    run m front.length s (front ++ rest) =
      run m 0 { s with previous := front.getLastD s.previous } rest := by
  induction front generalizing s with
  | nil => rfl
  | cons b front ih =>
      rw [List.length_cons, List.cons_append, run, ih, List.getLastD_cons]

/-- The scan behind a marker that a step takes. -/
theorem run_marker {marker tail : Bytes} {next : Scan} (shape : marker = b :: tail)
    (takes : s.step m b (tail ++ rest) = (next, marker.length - 1)) :
    run m 0 s (marker ++ rest) = run m 0 { next with previous := tail.getLastD b } rest := by
  subst shape
  rw [List.length_cons, Nat.add_sub_cancel] at takes
  rw [List.cons_append, run, takes, run_taken]

/-- Bytes at each of which the step leaves the scan as it is change nothing but the byte before the
cursor. The condition is on every ending of the stretch because a step sees what follows it. -/
theorem run_idle (idle : ∀ b tail, b :: tail <:+ front → ∀ p,
      { s with previous := p }.step m b (tail ++ rest) = ({ s with previous := p }, 0)) :
    run m 0 s (front ++ rest) = run m 0 { s with previous := front.getLastD s.previous } rest := by
  induction front generalizing s with
  | nil => rfl
  | cons b front ih =>
      have here : s.step m b (front ++ rest) = (s, 0) :=
        idle b front (List.suffix_refl _) s.previous
      have later := ih (s := { s with previous := b })
        fun c tail ending => idle c tail (ending.trans (List.suffix_cons b front))
      simp only [List.cons_append, run, here, List.getLastD_cons]
      exact later

theorem previous_run (m : Markers) (taken : Nat) (s : Scan) (data : Bytes) :
    (run m taken s data).previous = data.getLastD s.previous := by
  induction data generalizing taken s with
  | nil => rfl
  | cons b data ih =>
      cases taken with
      | zero => rw [run, ih, List.getLastD_cons]
      | succ taken => rw [run, ih, List.getLastD_cons]

/-! ## What a step does not look at -/

/-- Away from line feeds the tally is only carried along. -/
theorem step_with_tally (ordinary : b ≠ newline) (tally : LineTally) :
    { s with tally }.step m b rest =
      ({ (s.step m b rest).1 with tally }, (s.step m b rest).2) := by
  have rule := step_rule m s b rest
  generalize s.step m b rest = next at rule
  apply Rule.step_eq
  cases rule with
  | lineFeed feed => exact absurd feed ordinary
  | blank _ blank => exact .blank ordinary blank
  | inString visible mode => exact .inString visible mode
  | openString visible mode quoted => exact .openString visible mode quoted
  | openBlock visible mode unquoted found => exact .openBlock visible mode unquoted found
  | openLine visible mode unquoted noBlock found =>
      exact .openLine visible mode unquoted noBlock found
  | inCode visible mode unquoted noBlock noLine =>
      exact .inCode visible mode unquoted noBlock noLine
  | closeBlock visible mode found => exact .closeBlock visible mode found
  | inBlock visible mode absent => exact .inBlock visible mode absent
  | inLine visible mode => exact .inLine visible mode

theorem tally_step (ordinary : b ≠ newline) : (s.step m b rest).1.tally = s.tally :=
  congrArg (·.1.tally) (step_with_tally (s := s) ordinary s.tally)

/-- The byte before the cursor matters only inside a string, and there only if it is a backslash. -/
theorem step_with_previous {previous : UInt8}
    (same : ∀ quote, s.mode = .string quote → (previous = backslash ↔ s.previous = backslash)) :
    { s with previous }.step m b rest =
      ({ (s.step m b rest).1 with previous }, (s.step m b rest).2) := by
  have rule := step_rule m s b rest
  generalize s.step m b rest = next at rule
  apply Rule.step_eq
  cases rule with
  | lineFeed feed => exact .lineFeed feed
  | blank ordinary blank => exact .blank ordinary blank
  | inString visible mode =>
      simpa only [ne_eq, same _ mode] using
        Rule.inString (s := { s with previous }) visible mode
  | openString visible mode quoted => exact .openString visible mode quoted
  | openBlock visible mode unquoted found => exact .openBlock visible mode unquoted found
  | openLine visible mode unquoted noBlock found =>
      exact .openLine visible mode unquoted noBlock found
  | inCode visible mode unquoted noBlock noLine =>
      exact .inCode visible mode unquoted noBlock noLine
  | closeBlock visible mode found => exact .closeBlock visible mode found
  | inBlock visible mode absent => exact .inBlock visible mode absent
  | inLine visible mode => exact .inLine visible mode

theorem run_with_tally (noFeed : newline ∉ front) (tally : LineTally) :
    run m taken { s with tally } front = { run m taken s front with tally } := by
  induction front generalizing taken s with
  | nil => rfl
  | cons b front ih =>
      rw [List.mem_cons, not_or] at noFeed
      cases taken with
      | zero =>
          rw [run, run, step_with_tally (Ne.symm noFeed.1)]
          exact ih (s := { (s.step m b front).1 with previous := b }) noFeed.2
      | succ taken => exact ih (s := { s with previous := b }) noFeed.2

/-- Where the byte before the cursor does not matter at the first byte, it does not matter at all.
-/
theorem run_cons_with_previous {previous : UInt8}
    (same : ∀ quote, s.mode = .string quote → (previous = backslash ↔ s.previous = backslash)) :
    run m 0 { s with previous } (b :: rest) = run m 0 s (b :: rest) := by
  simp only [run, step_with_previous same]

end Scan

theorem Markers.classify_of_ne_nil {m : Markers} {data : Bytes} (nonempty : data ≠ [])
    (start : LineTally) :
    m.classify start data = (Scan.run m 0 { tally := start } data).finish := by
  rw [classify, if_neg (by simpa using nonempty)]

end Bytewise

import Bytewise.Proofs.Classifier.LineByLine

/-!
# Accounting for every line

Every line feed closes a line unless a marker takes it. `swallowed` counts the line feeds that
markers take, and `total_classify_add_swallowed` is the balance that holds for all markers: the
lines counted and the line feeds swallowed make up the lines of the file.

So a language accounts for the lines of every file exactly if none of its markers that can be found
holds a line feed (`Markers.KeepsLines`). Not every marker can be found: blanks are passed over and
quotes open strings before markers are looked for, and the block marker is looked for before the
line marker. Nothing in the making of a language excludes the markers that do swallow line feeds,
nor those that are no ASCII texts and so have no bytes here.
-/

namespace Bytewise

/-- A marker that the scan of code can find: at its first byte neither a blank is passed over nor a
string opened. -/
def canOpen (marker : Bytes) : Bool := marker.head?.any fun b => !isBlankByte b && !Scan.isQuote b

/-- A marker that the scan of a block comment can find. -/
def canClose (marker : Bytes) : Bool := marker.head?.any fun b => !isBlankByte b

theorem canOpen_iff {marker : Bytes} :
    canOpen marker = true ↔
      ∃ b tail, marker = b :: tail ∧ isBlankByte b = false ∧ Scan.isQuote b = false := by
  cases marker <;> simp [canOpen]

theorem canClose_iff {marker : Bytes} :
    canClose marker = true ↔ ∃ b tail, marker = b :: tail ∧ isBlankByte b = false := by
  cases marker <;> simp [canClose]

/-- No marker that can be found holds a line feed. -/
structure Markers.KeepsLines (m : Markers) : Prop where
  blockStart : canOpen m.blockStart = true → newline ∉ m.blockStart
  blockEnd : canOpen m.blockStart = true → canClose m.blockEnd = true → newline ∉ m.blockEnd
  line : canOpen m.line = true → ¬ m.blockStart <+: m.line → newline ∉ m.line

theorem lineCount_of_ne_nil {data : Bytes} (nonempty : data ≠ []) (before : UInt8) :
    lineCount data =
      data.count newline + if data.getLastD before = newline then 0 else 1 := by
  rw [lineCount, List.getLastD_eq_getLast?, List.getLast?_eq_some_getLast nonempty]
  by_cases feed : data.getLast nonempty = newline
  · simp [feed]
  · simp [feed, nonempty]

namespace Scan

variable {m : Markers} {s : Scan} {b : UInt8} {rest data : Bytes} {taken : Nat}

/-- The line feeds that a scan passes over because a marker has taken them. -/
def swallowed (m : Markers) : Nat → Scan → Bytes → Nat
  | _, _, [] => 0
  | taken + 1, s, b :: rest => [b].count newline + swallowed m taken { s with previous := b } rest
  | 0, s, b :: rest =>
    let next := s.step m b rest
    swallowed m next.2 { next.1 with previous := b } rest

/-! ## The balance -/

private theorem count_cons_split (b : UInt8) (data : Bytes) :
    (b :: data).count newline = [b].count newline + data.count newline := by
  rw [← List.singleton_append, List.count_append]

theorem total_closeLine (s : Scan) : s.closeLine.total = s.tally.total + 1 := by
  rw [closeLine_eq_add, LineTally.total_add, List.length_singleton]

theorem total_finish (s : Scan) :
    s.finish.total = s.tally.total + if s.previous = newline then 0 else 1 := by
  rw [finish]
  split
  · rfl
  · exact total_closeLine s

theorem total_step (m : Markers) (s : Scan) (b : UInt8) (rest : Bytes) :
    (s.step m b rest).1.tally.total = s.tally.total + [b].count newline := by
  by_cases feed : b = newline
  · rw [(Rule.lineFeed feed).step_eq, feed, List.count_singleton_self]
    exact total_closeLine s
  · rw [tally_step feed, List.count_singleton, if_neg (by simpa using feed), Nat.add_zero]

/-- Each line feed is either counted as the end of a line or swallowed. -/
theorem total_run_add_swallowed (m : Markers) (taken : Nat) (s : Scan) (data : Bytes) :
    (run m taken s data).tally.total + swallowed m taken s data =
      s.tally.total + data.count newline := by
  induction data generalizing taken s with
  | nil => rfl
  | cons b data ih =>
      have split := count_cons_split b data
      cases taken with
      | zero =>
          have later := ih (s.step m b data).2 { (s.step m b data).1 with previous := b }
          have here := total_step m s b data
          simp only [run, swallowed] at later ⊢
          omega
      | succ taken =>
          have later := ih taken { s with previous := b }
          simp only [run, swallowed] at later ⊢
          omega

end Scan

/-- The lines that are counted and the line feeds that markers take make up the lines of a file. -/
theorem Markers.total_classify_add_swallowed (m : Markers) (start : LineTally) (data : Bytes) :
    (m.classify start data).total + Scan.swallowed m 0 { tally := start } data =
      start.total + lineCount data := by
  cases data with
  | nil => rfl
  | cons b data =>
      have balance := Scan.total_run_add_swallowed m 0 { tally := start } (b :: data)
      have last := Scan.previous_run m 0 { tally := start } (b :: data)
      rw [classify_of_ne_nil (List.cons_ne_nil b data), Scan.total_finish, last,
        lineCount_of_ne_nil (List.cons_ne_nil b data) 0]
      simp only at balance ⊢
      omega

namespace Scan

variable {m : Markers} {s : Scan} {b : UInt8} {rest data : Bytes} {taken : Nat}

/-! ## Markers that swallow nothing -/

/-- A marker that was found is the current byte and the bytes that are taken with it. -/
private theorem eq_cons_take {marker : Bytes} (nonempty : marker ≠ [])
    (found : marker <+: b :: rest) : marker = b :: rest.take (marker.length - 1) := by
  obtain ⟨c, tail, rfl⟩ := List.exists_cons_of_ne_nil nonempty
  obtain ⟨rfl, inRest⟩ := List.cons_prefix_cons.mp found
  rw [List.length_cons, Nat.add_sub_cancel, ← List.prefix_iff_eq_take.mp inRest]

private theorem canOpen_of_found {marker : Bytes} (nonempty : marker ≠ [])
    (visible : isBlankByte b = false) (unquoted : isQuote b = false)
    (found : marker <+: b :: rest) : canOpen marker = true :=
  canOpen_iff.mpr ⟨b, _, eq_cons_take nonempty found, visible, unquoted⟩

private theorem canClose_of_found {marker : Bytes} (nonempty : marker ≠ [])
    (visible : isBlankByte b = false) (found : marker <+: b :: rest) : canClose marker = true :=
  canClose_iff.mpr ⟨b, _, eq_cons_take nonempty found, visible⟩

/-- A block comment is entered only by a marker that can be found. -/
theorem canOpen_of_step_block (nonempty : m.blockStart ≠ [])
    (entered : s.mode = .blockComment → canOpen m.blockStart = true)
    (inBlock : (s.step m b rest).1.mode = .blockComment) : canOpen m.blockStart = true := by
  have rule := step_rule m s b rest
  generalize s.step m b rest = next at rule inBlock
  cases rule with
  | openBlock visible _ unquoted found =>
      exact canOpen_of_found nonempty visible unquoted found
  | lineFeed _ =>
      apply entered
      simp only [nextLine] at inBlock
      split at inBlock
      · cases inBlock
      · exact inBlock
  | inString _ mode =>
      simp only [mode] at inBlock
      split at inBlock <;> cases inBlock
  | openString _ _ _ => cases inBlock
  | openLine _ _ _ _ _ => cases inBlock
  | closeBlock _ _ _ => cases inBlock
  | _ => exact entered inBlock

/-- No line feed is among the bytes that a step takes. -/
theorem step_keeps (nonempty : m.Nonempty) (keeps : m.KeepsLines)
    (entered : s.mode = .blockComment → canOpen m.blockStart = true) (b : UInt8) (rest : Bytes) :
    newline ∉ rest.take (s.step m b rest).2 := by
  have clean {marker : Bytes} (filled : marker ≠ []) (found : marker <+: b :: rest)
      (free : newline ∉ marker) : newline ∉ rest.take (marker.length - 1) := by
    rw [eq_cons_take filled found] at free
    exact fun feed => free (List.mem_cons_of_mem b feed)
  have rule := step_rule m s b rest
  generalize s.step m b rest = next at rule
  cases rule with
  | openBlock visible _ unquoted found =>
      have opens := canOpen_of_found nonempty.blockStart visible unquoted found
      exact clean nonempty.blockStart found (keeps.blockStart opens)
  | openLine visible _ unquoted noBlock found =>
      have opens := canOpen_of_found nonempty.line visible unquoted found
      have first : ¬ m.blockStart <+: m.line := fun block => noBlock (block.trans found)
      exact clean nonempty.line found (keeps.line opens first)
  | closeBlock visible mode found =>
      have closes := canClose_of_found nonempty.blockEnd visible found
      exact clean nonempty.blockEnd found (keeps.blockEnd (entered mode) closes)
  | _ => exact List.not_mem_nil

/-- The two facts above are what a run carries along: how a block comment was entered, and that the
bytes still pending hold no line feed. -/
theorem swallowed_eq_zero (nonempty : m.Nonempty) (keeps : m.KeepsLines)
    (entered : s.mode = .blockComment → canOpen m.blockStart = true)
    (pending : newline ∉ data.take taken) : swallowed m taken s data = 0 := by
  induction data generalizing taken s with
  | nil => rfl
  | cons b data ih =>
      cases taken with
      | zero =>
          exact ih (s := { (s.step m b data).1 with previous := b })
            (canOpen_of_step_block nonempty.blockStart entered)
            (step_keeps nonempty keeps entered b data)
      | succ taken =>
          rw [List.take_succ_cons, List.mem_cons, not_or] at pending
          rw [swallowed, ih (s := { s with previous := b }) entered pending.2, Nat.add_zero]
          exact List.count_eq_zero.mpr (by simpa using pending.1)

/-! ## Markers that swallow line feeds -/

/-- Bytes taken by a marker give up all their line feeds. -/
theorem swallowed_taken (m : Markers) (s : Scan) (front rest : Bytes) :
    swallowed m front.length s (front ++ rest) =
      front.count newline +
        swallowed m 0 { s with previous := front.getLastD s.previous } rest := by
  induction front generalizing s with
  | nil => simp
  | cons b front ih =>
      rw [List.length_cons, List.cons_append, swallowed, ih, List.getLastD_cons,
        count_cons_split b front, Nat.add_assoc]

/-- A step that takes a marker swallows all of the marker's line feeds. -/
theorem swallowed_marker {marker tail : Bytes} {next : Scan} (shape : marker = b :: tail)
    (visible : isBlankByte b = false)
    (takes : s.step m b (tail ++ rest) = (next, marker.length - 1)) :
    swallowed m 0 s (marker ++ rest) =
      marker.count newline + swallowed m 0 { next with previous := tail.getLastD b } rest := by
  subst shape
  rw [List.length_cons, Nat.add_sub_cancel] at takes
  rw [List.cons_append, swallowed, takes, swallowed_taken,
    List.count_cons_of_ne (ne_newline_of_visible visible)]

/-- A marker that can be found and holds a line feed swallows it in the file that consists of the
marker, after a block marker if it ends blocks. -/
theorem keepsLines_of_swallowed (never : ∀ data, swallowed m 0 {} data = 0) : m.KeepsLines := by
  refine ⟨fun opens => ?_, fun opens closes => ?_, fun opens first => ?_⟩
  · obtain ⟨b, tail, shape, visible, unquoted⟩ := canOpen_iff.mp opens
    have found : m.blockStart <+: b :: (tail ++ []) := by simp [shape]
    have balance := swallowed_marker shape visible
      (Rule.openBlock (s := {}) visible rfl unquoted found).step_eq
    rw [never] at balance
    exact List.count_eq_zero.mp (by omega)
  · obtain ⟨b, tail, shape, visible, unquoted⟩ := canOpen_iff.mp opens
    obtain ⟨c, ending, shape', visible'⟩ := canClose_iff.mp closes
    have found : m.blockStart <+: b :: (tail ++ m.blockEnd) := by simp [shape]
    have balance := swallowed_marker shape visible
      (Rule.openBlock (s := {}) visible rfl unquoted found).step_eq
    -- Behind the block marker the scan is in a block comment, where the end marker is looked for.
    let inside : Scan := { mode := .blockComment, hasComment := true, previous := tail.getLastD b }
    have found' : m.blockEnd <+: c :: (ending ++ []) := by simp [shape']
    have balance' := swallowed_marker shape' visible'
      (Rule.closeBlock (s := inside) visible' rfl found').step_eq
    rw [List.append_nil] at balance'
    rw [never, balance'] at balance
    exact List.count_eq_zero.mp (by omega)
  · obtain ⟨b, tail, shape, visible, unquoted⟩ := canOpen_iff.mp opens
    have noBlock : ¬ m.blockStart <+: b :: (tail ++ []) := by simpa [← shape] using first
    have found : m.line <+: b :: (tail ++ []) := by simp [shape]
    have balance := swallowed_marker shape visible
      (Rule.openLine (s := {}) visible rfl unquoted noBlock found).step_eq
    rw [never] at balance
    exact List.count_eq_zero.mp (by omega)

end Scan

/-! ## The exact condition -/

theorem Markers.total_classify_iff {m : Markers} (nonempty : m.Nonempty) :
    (∀ data, (m.classify {} data).total = lineCount data) ↔ m.KeepsLines := by
  have balance (data : Bytes) :
      (m.classify {} data).total + Scan.swallowed m 0 {} data = lineCount data := by
    simpa [LineTally.total] using m.total_classify_add_swallowed {} data
  constructor
  · intro total
    apply Scan.keepsLines_of_swallowed
    intro data
    have counted := total data
    have all := balance data
    omega
  · intro keeps data
    have pending : newline ∉ data.take 0 := List.not_mem_nil
    have none : Scan.swallowed m 0 {} data = 0 :=
      Scan.swallowed_eq_zero nonempty keeps (by simp) pending
    have all := balance data
    omega

/-- A language can classify every file and accounts for every line of it exactly if its markers are
ASCII texts and none of those that can be found holds a line feed. -/
theorem Language.accounts_for_every_line_iff (l : Language) :
    (∀ data, ∃ m, l.markers = .ok m ∧ (m.classify {} data).total = lineCount data) ↔
      l.AsciiMarkers ∧ ∀ m, l.markers = .ok m → m.KeepsLines := by
  constructor
  · intro accounts
    obtain ⟨m, encoded, _⟩ := accounts []
    refine ⟨exists_markers_iff.mp ⟨m, encoded⟩, fun m' encoded' => ?_⟩
    apply (Markers.total_classify_iff (nonempty_of_markers encoded')).mp
    intro data
    obtain ⟨m'', encoded'', total⟩ := accounts data
    cases encoded'.symm.trans encoded''
    exact total
  · rintro ⟨ascii, keeps⟩ data
    obtain ⟨m, encoded⟩ := exists_markers_iff.mpr ascii
    have total := (Markers.total_classify_iff (nonempty_of_markers encoded)).mpr (keeps m encoded)
    exact ⟨m, encoded, total data⟩

/-- Two languages that are accepted and yet do not account for every line. The line marker of the
first takes its own line feed, so a file of two lines is counted as one; the block marker of the
second is no ASCII text, so not even an empty file can be classified. -/
theorem Language.accepted_without_accounting :
    (∃ l, make 1 "Rules" [".r"] "--\n" "(*" "*)" = .ok l ∧ ∃ m, l.markers = .ok m ∧
      (m.classify {} (Text.encode "--\nx\n")).total = 1 ∧
      lineCount (Text.encode "--\nx\n") = 2) ∧
    ∃ l, make 1 "Guillemets" [".g"] "#" "«" "»" = .ok l ∧ l.markers = .error .unencodable :=
  ⟨⟨_, rfl, _, rfl, by decide, by decide⟩, _, rfl, rfl⟩

end Bytewise

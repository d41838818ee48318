import Bytewise.Proofs.Classifier.Regions

/-!
# Block comments of the known languages

A block comment that stands alone counts one comment line for each line it touches, whatever it
holds, provided that its markers can be found (`Markers.classify_block_comment`).

Python's cannot. Its block marker is three quotes, and in code a quote opens a string before markers
are looked for, so no scan ever enters a block comment of Python (`Markers.not_entersAt_block`) and
its blocks are read as strings. All other languages that are known without a table have markers that
are found.
-/

namespace Bytewise

theorem FirstAtEnd.tail {marker body : Bytes} {b : UInt8} (first : FirstAtEnd marker (b :: body)) :
    FirstAtEnd marker body := by
  intro i inside
  exact first (i + 1) (Nat.succ_lt_succ inside)

namespace Scan

variable {m : Markers} {s : Scan} {body : Bytes}

/-- Up to its end marker, a block comment makes every line that ends in it a comment line. -/
theorem run_block_lines (mode : s.mode = .blockComment) (hasCode : s.hasCode = false)
    (first : FirstAtEnd m.blockEnd body) (rest : Bytes) :
    ∃ t, run m 0 s (body ++ (m.blockEnd ++ rest)) = run m 0 t (m.blockEnd ++ rest) ∧
      t.mode = .blockComment ∧ t.hasCode = false ∧
      t.tally = { s.tally with comment := s.tally.comment + body.count newline } := by
  induction body generalizing s with
  | nil => exact ⟨s, rfl, mode, hasCode, rfl⟩
  | cons b body ih =>
      by_cases feed : b = newline
      · have closed : s.nextLine =
            { mode := .blockComment
              previous := s.previous
              tally := { s.tally with comment := s.tally.comment + 1 } } := by
          simp [nextLine, closeLine, mode]
        obtain ⟨t, arrives, mode', hasCode', tally⟩ :=
          ih (s := { s.nextLine with previous := b }) (by rw [closed]) rfl first.tail
        refine ⟨t, ?_, mode', hasCode', ?_⟩
        · rw [List.cons_append, run, (Rule.lineFeed feed).step_eq]
          exact arrives
        · rw [tally, closed, feed, List.count_cons_self]
          simp only [LineTally.mk.injEq, true_and, and_true]
          omega
      · have idle := step_inside_block mode feed (first.absent (List.suffix_refl _) rest)
        obtain ⟨t, arrives, mode', hasCode', tally⟩ :=
          ih (s := { s with previous := b }) mode hasCode first.tail
        refine ⟨t, ?_, mode', hasCode', ?_⟩
        · rw [List.cons_append, run, idle]
          exact arrives
        · rw [tally, List.count_cons_of_ne feed]

end Scan

namespace Markers

variable {m : Markers} {body : Bytes}

/-- A block comment that stands alone is comment from its first line to its last. -/
theorem classify_block_comment (opens : canOpen m.blockStart = true)
    (closes : canClose m.blockEnd = true) (first : FirstAtEnd m.blockEnd body) :
    m.classify {} (m.blockStart ++ body ++ m.blockEnd ++ [newline]) =
      { code := 0, comment := body.count newline + 1, blank := 0 } := by
  obtain ⟨b, tail, shape, visible, unquoted⟩ := canOpen_iff.mp opens
  obtain ⟨c, ending, shape', visible'⟩ := canClose_iff.mp closes
  have found : m.blockStart <+: b :: (tail ++ (body ++ (m.blockEnd ++ [newline]))) := by
    simp [shape]
  have entered := Scan.run_marker shape
    (Scan.Rule.openBlock (s := {}) visible rfl unquoted found).step_eq
  obtain ⟨t, passed, mode, hasCode, tally⟩ :=
    Scan.run_block_lines (m := m)
      (s := { mode := .blockComment, hasComment := true, previous := tail.getLastD b })
      rfl rfl first [newline]
  have found' : m.blockEnd <+: c :: (ending ++ [newline]) := by simp [shape']
  have left := Scan.run_marker shape' (Scan.Rule.closeBlock visible' mode found').step_eq
  rw [classify_of_ne_nil (by simp), List.append_assoc, List.append_assoc, entered, passed, left,
    Scan.run, (Scan.Rule.lineFeed rfl).step_eq]
  simp [Scan.run, Scan.finish, Scan.nextLine, Scan.closeLine, hasCode, tally]

/-- No scan enters a block comment whose marker cannot be found. -/
theorem not_entersAt_block (nonempty : m.blockStart ≠ []) (hidden : canOpen m.blockStart = false)
    (data : Bytes) (offset : Nat) : ¬ m.EntersAt data offset .blockComment := by
  intro enters
  rw [EntersAt] at enters
  split at enters
  · exact enters
  · obtain ⟨_, code, step⟩ := enters
    have opens := Scan.canOpen_of_step_block nonempty (by simp [code]) step
    rw [hidden] at opens
    cases opens

end Markers

/-! ## The languages known without a table -/

theorem Registry.languages_standard : standard.languages = Language.standard := rfl

theorem Language.markers_withSlashComments (id : Nat) (name : Text) (extensions : List Text) :
    (withSlashComments id name extensions).markers =
      .ok ⟨[0x2F, 0x2F], [0x2F, 0x2A], [0x2A, 0x2F]⟩ := rfl

theorem Language.markers_python :
    python.markers = .ok ⟨[0x23], [0x22, 0x22, 0x22], [0x22, 0x22, 0x22]⟩ := rfl

/-- All known languages but Python have C's comments. -/
theorem Language.cases_of_mem_standard {l : Language} (known : l ∈ standard) :
    l = python ∨ l.name ≠ "Python" ∧ ∃ id name extensions,
      l = withSlashComments id name extensions := by
  simp only [standard, List.mem_cons, List.not_mem_nil, or_false] at known
  obtain rfl | rfl | rfl | rfl | rfl | rfl | rfl := known
  case inr.inr.inl => exact .inl rfl
  all_goals exact .inr ⟨by decide, _, _, _, rfl⟩

/-- The block comments of a known language are counted as comment on every line they touch exactly
if the language is not Python; of Python no file has a scan that enters one. -/
theorem Registry.block_comments_counted_iff (l : Language) (known : l ∈ standard.languages) :
    ∃ m, l.markers = .ok m ∧
      ((∀ body, FirstAtEnd m.blockEnd body →
        m.classify {} (m.blockStart ++ body ++ m.blockEnd ++ [newline]) =
          { code := 0, comment := body.count newline + 1, blank := 0 }) ↔ l.name ≠ "Python") ∧
      (l.name = "Python" → ∀ data offset, ¬ m.EntersAt data offset .blockComment) := by
  rw [languages_standard] at known
  obtain rfl | ⟨other, id, name, extensions, rfl⟩ := Language.cases_of_mem_standard known
  · refine ⟨_, Language.markers_python, ⟨fun counted => ?_, fun other => absurd rfl other⟩,
      fun _ => ?_⟩
    · -- The empty block is six quotes: three strings, and a line of code.
      have empty := counted [] (by simp [FirstAtEnd])
      exact absurd empty (by decide)
    · exact Markers.not_entersAt_block (by simp) (by decide)
  · refine ⟨_, Language.markers_withSlashComments id name extensions, ⟨fun _ => other, fun _ => ?_⟩,
      fun python => absurd python other⟩
    intro body first
    exact Markers.classify_block_comment (by decide) (by decide) first

theorem Registry.block_comments_not_counted_python :
    Language.python ∈ standard.languages ∧ ∃ m, Language.python.markers = .ok m ∧
      (¬ ∀ body, FirstAtEnd m.blockEnd body →
        m.classify {} (m.blockStart ++ body ++ m.blockEnd ++ [newline]) =
          { code := 0, comment := body.count newline + 1, blank := 0 }) ∧
      ∀ data offset, ¬ m.EntersAt data offset .blockComment := by
  have known : Language.python ∈ standard.languages := by
    simp [languages_standard, Language.standard]
  obtain ⟨m, encoded, counted, never⟩ := block_comments_counted_iff Language.python known
  exact ⟨known, m, encoded, fun all => counted.mp all rfl, never rfl⟩

end Bytewise

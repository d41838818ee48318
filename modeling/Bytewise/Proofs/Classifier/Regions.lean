import Bytewise.Proofs.Classifier.Accounting

/-!
# The inside of comments and strings

A region is what stands between the place where a scan enters a comment or a string and the place
where it leaves it again. Once a region is entered, nothing inside it matters but what ends it, so
two files that differ inside one region only are classified alike (`Markers.classify_region_congr`).

The bytes before the region are seen by a scan that looks ahead into the region. That the two scans
enter it at the same offset is enough to know that neither has seen anything of its inside: each is
the scan of the bytes before the region alone.
-/

namespace Bytewise

/-- In a body that is followed by a marker, the marker occurs at the end of the body and not
earlier. -/
def FirstAtEnd (marker body : Bytes) : Prop :=
  ∀ i < body.length, ¬ marker <+: (body ++ marker).drop i

instance (marker body : Bytes) : Decidable (FirstAtEnd marker body) :=
  inferInstanceAs (Decidable (∀ i < body.length, ¬ marker <+: (body ++ marker).drop i))

/-- The scan of a file comes to an offset in code, with no marker pending, and the step it makes
there takes it into the given mode. -/
def Markers.EntersAt (m : Markers) (data : Bytes) (offset : Nat) (mode : Mode) : Prop :=
  match data.drop offset with
  | [] => False
  | b :: rest =>
    let (s, taken) := Scan.across m (b :: rest) 0 {} (data.take offset)
    taken = 0 ∧ s.mode = .code ∧ (s.step m b rest).1.mode = mode

theorem FirstAtEnd.absent {marker body : Bytes} (first : FirstAtEnd marker body) {b : UInt8}
    {tail : Bytes} (ending : b :: tail <:+ body) (rest : Bytes) :
    ¬ marker <+: b :: (tail ++ (marker ++ rest)) := by
  obtain ⟨front, rfl⟩ := ending
  intro found
  have offset : (front ++ b :: tail ++ marker).drop front.length = b :: tail ++ marker := by simp
  have within : b :: tail ++ marker <+: b :: (tail ++ (marker ++ rest)) := ⟨rest, by simp⟩
  have shorter : marker.length ≤ (b :: tail ++ marker).length := by
    rw [List.length_append]
    omega
  have early := List.prefix_of_prefix_length_le found within shorter
  exact first front.length (by simp) (offset ▸ early)

namespace Scan

variable {m : Markers} {s : Scan} {b quote : UInt8} {front inside rest : Bytes} {mode : Mode}

/-! ## Entering a region -/

/-- The scan up to the place where a region is entered is the scan of the bytes before it. -/
theorem of_entersAt (enters : m.EntersAt (front ++ rest) front.length mode) :
    run m 0 {} (front ++ rest) = run m 0 (run m 0 {} front) rest ∧
      (run m 0 {} front).mode = .code ∧
      ∃ b tail, rest = b :: tail ∧ ((run m 0 {} front).step m b tail).1.mode = mode := by
  rw [Markers.EntersAt, List.drop_left, List.take_left] at enters
  cases rest with
  | nil => exact enters.elim
  | cons b tail =>
      obtain ⟨landed, code, step⟩ := enters
      have alone := across_of_landed landed
      rw [alone] at code step
      exact ⟨run_append_of_landed landed, code, b, tail, rfl, step⟩

/-- The step by which a scan in code enters a mode. -/
def entry (m : Markers) (s : Scan) : Mode → Scan × Nat
  | .code => (s, 0)
  | .string quote => ({ s with mode := .string quote, hasCode := true }, 0)
  | .blockComment =>
    ({ s with mode := .blockComment, hasComment := true }, m.blockStart.length - 1)
  | .lineComment => ({ s with mode := .lineComment, hasComment := true }, m.line.length - 1)

theorem step_eq_entry (code : s.mode = .code) (leaves : mode ≠ .code)
    (enters : (s.step m b rest).1.mode = mode) : s.step m b rest = entry m s mode := by
  subst enters
  have rule := step_rule m s b rest
  generalize s.step m b rest = next at rule leaves
  cases rule with
  | openString _ _ _ => rfl
  | openBlock _ _ _ _ => rfl
  | openLine _ _ _ _ _ => rfl
  | lineFeed _ => simp [nextLine, code] at leaves
  | inString _ string => simp [code] at string
  | closeBlock _ block _ => simp [code] at block
  | _ => exact absurd code leaves

/-- The scan of a file that enters a mode behind `front` goes on behind what is taken to enter it.
-/
theorem run_entry (leaves : mode ≠ .code) {opening tail : Bytes} (shape : opening = b :: tail)
    (taken : (entry m (run m 0 {} front) mode).2 = opening.length - 1)
    (enters : m.EntersAt (front ++ (opening ++ rest)) front.length mode) :
    run m 0 {} (front ++ (opening ++ rest)) =
      run m 0 { (entry m (run m 0 {} front) mode).1 with previous := tail.getLastD b } rest := by
  obtain ⟨arrives, code, c, behind, here, step⟩ := of_entersAt enters
  rw [shape, List.cons_append, List.cons.injEq] at here
  obtain ⟨rfl, rfl⟩ := here
  have takes := step_eq_entry code leaves step
  exact arrives.trans (run_marker shape (takes.trans (Prod.ext rfl taken)))

/-! ## Inside a region -/

theorem step_inside_line (mode : s.mode = .lineComment) (ordinary : b ≠ newline) :
    s.step m b rest = (s, 0) := by
  cases visible : isBlankByte b with
  | true => exact (Rule.blank ordinary visible).step_eq
  | false => exact (Rule.inLine visible mode).step_eq

theorem step_inside_string (mode : s.mode = .string quote) (hasCode : s.hasCode = true)
    (ordinary : b ≠ newline) (other : b ≠ quote) : s.step m b rest = (s, 0) := by
  cases visible : isBlankByte b with
  | true => exact (Rule.blank ordinary visible).step_eq
  | false =>
      rw [(Rule.inString visible mode).step_eq, if_neg fun closes => other closes.1, ← hasCode]

theorem step_inside_block (mode : s.mode = .blockComment) (ordinary : b ≠ newline)
    (absent : ¬ m.blockEnd <+: b :: rest) : s.step m b rest = (s, 0) := by
  cases visible : isBlankByte b with
  | true => exact (Rule.blank ordinary visible).step_eq
  | false => exact (Rule.inBlock visible mode absent).step_eq

/-- A line comment is passed over up to its line feed, which closes the line. -/
theorem run_inside_line (mode : s.mode = .lineComment) (noFeed : newline ∉ inside) :
    run m 0 s (inside ++ newline :: rest) =
      run m 0 { s.nextLine with previous := newline } rest := by
  rw [run_idle]
  · rw [run, (Rule.lineFeed rfl).step_eq]
    rfl
  · intro b tail ending p
    have ordinary : b ≠ newline := fun feed => noFeed (feed ▸ ending.subset List.mem_cons_self)
    exact step_inside_line (s := { s with previous := p }) mode ordinary

/-- A string is passed over up to its closing quote, if no backslash stands before that. -/
theorem run_inside_string (mode : s.mode = .string quote) (hasCode : s.hasCode = true)
    (visible : isBlankByte quote = false) (noQuote : quote ∉ inside) (noFeed : newline ∉ inside)
    (unescaped : inside.getLastD s.previous ≠ backslash) :
    run m 0 s (inside ++ quote :: rest) =
      run m 0 { s with mode := .code, previous := quote } rest := by
  rw [run_idle]
  · let last : Scan := { s with previous := inside.getLastD s.previous }
    have closes : last.step m quote rest = ({ last with mode := .code, hasCode := true }, 0) := by
      rw [(Rule.inString (s := last) visible mode).step_eq, if_pos ⟨rfl, unescaped⟩]
    rw [run, closes, ← hasCode]
  · intro b tail ending p
    have member : b ∈ inside := ending.subset List.mem_cons_self
    have ordinary : b ≠ newline := fun feed => noFeed (feed ▸ member)
    have other : b ≠ quote := fun closes => noQuote (closes ▸ member)
    exact step_inside_string (s := { s with previous := p }) mode hasCode ordinary other

/-- A block comment within a line is passed over up to its end marker. Whether or not that can be
found there, the byte before it does not matter. -/
theorem run_inside_block (mode : s.mode = .blockComment) (nonempty : m.blockEnd ≠ [])
    (noFeed : newline ∉ inside) (first : FirstAtEnd m.blockEnd inside) :
    run m 0 s (inside ++ (m.blockEnd ++ rest)) = run m 0 s (m.blockEnd ++ rest) := by
  rw [run_idle]
  · obtain ⟨b, tail, shape⟩ := List.exists_cons_of_ne_nil nonempty
    rw [shape, List.cons_append]
    exact run_cons_with_previous fun quote string => by simp [mode] at string
  · intro b tail ending p
    have ordinary : b ≠ newline := fun feed => noFeed (feed ▸ ending.subset List.mem_cons_self)
    exact step_inside_block (s := { s with previous := p }) mode ordinary (first.absent ending rest)

/-! ## Whole regions

The scan behind a region, as a function of the bytes before it only. -/

theorem run_line_region (nonempty : m.line ≠ []) (noFeed : newline ∉ inside)
    (enters : m.EntersAt (front ++ (m.line ++ (inside ++ newline :: rest))) front.length
      .lineComment) :
    run m 0 {} (front ++ (m.line ++ (inside ++ newline :: rest))) =
      run m 0 { (entry m (run m 0 {} front) .lineComment).1.nextLine with previous := newline }
        rest := by
  obtain ⟨b, tail, shape⟩ := List.exists_cons_of_ne_nil nonempty
  rw [run_entry (by simp) shape rfl enters, run_inside_line rfl noFeed]
  rfl

theorem run_string_region (quoted : isQuote quote = true) (noQuote : quote ∉ inside)
    (noFeed : newline ∉ inside) (unescaped : inside.getLast? ≠ some backslash)
    (enters : m.EntersAt (front ++ quote :: (inside ++ quote :: rest)) front.length
      (.string quote)) :
    run m 0 {} (front ++ quote :: (inside ++ quote :: rest)) =
      run m 0 { run m 0 {} front with mode := .code, hasCode := true, previous := quote } rest := by
  have visible : isBlankByte quote = false ∧ quote ≠ backslash := by
    obtain double | single : quote = 0x22 ∨ quote = 0x27 := by simpa [isQuote] using quoted
    · subst double; decide
    · subst single; decide
  have last : inside.getLastD quote ≠ backslash := by
    rw [List.getLastD_eq_getLast?]
    cases final : inside.getLast? with
    | none => exact visible.2
    | some b => exact fun escape => unescaped (final.trans (congrArg some escape))
  have arrives : run m 0 {} (front ++ ([quote] ++ (inside ++ quote :: rest))) =
      run m 0 { (entry m (run m 0 {} front) (.string quote)).1 with previous := quote }
        (inside ++ quote :: rest) :=
    run_entry (by simp) rfl rfl enters
  refine arrives.trans ?_
  rw [run_inside_string rfl rfl visible.1 noQuote noFeed last]
  rfl

theorem run_block_region (nonempty : m.Nonempty) (noFeed : newline ∉ inside)
    (first : FirstAtEnd m.blockEnd inside)
    (enters : m.EntersAt (front ++ (m.blockStart ++ (inside ++ (m.blockEnd ++ rest)))) front.length
      .blockComment) :
    run m 0 {} (front ++ (m.blockStart ++ (inside ++ (m.blockEnd ++ rest)))) =
      run m 0 (entry m (run m 0 {} front) .blockComment).1 (m.blockEnd ++ rest) := by
  obtain ⟨b, tail, shape⟩ := List.exists_cons_of_ne_nil nonempty.blockStart
  rw [run_entry (by simp) shape rfl enters, run_inside_block rfl nonempty.blockEnd noFeed first]
  obtain ⟨c, ending, shape'⟩ := List.exists_cons_of_ne_nil nonempty.blockEnd
  rw [shape', List.cons_append]
  exact run_cons_with_previous fun quote string => by simp [entry] at string

end Scan

/-- The contents of comments and strings are opaque: files that differ only inside one region, which
the scans of both enter at the same offset, have the same tally. The region is a line comment up to
its line feed, a string up to the quote that closes it, or a block comment within a line up to its
end marker. -/
theorem Markers.classify_region_congr (m : Markers) (nonempty : m.Nonempty)
    (front rest x y : Bytes) :
    (newline ∉ x → newline ∉ y →
      m.EntersAt (front ++ m.line ++ x ++ newline :: rest) front.length .lineComment →
      m.EntersAt (front ++ m.line ++ y ++ newline :: rest) front.length .lineComment →
      m.classify {} (front ++ m.line ++ x ++ newline :: rest) =
        m.classify {} (front ++ m.line ++ y ++ newline :: rest)) ∧
    (∀ quote, Scan.isQuote quote = true →
      quote ∉ x → newline ∉ x → x.getLast? ≠ some Scan.backslash →
      quote ∉ y → newline ∉ y → y.getLast? ≠ some Scan.backslash →
      m.EntersAt (front ++ quote :: x ++ quote :: rest) front.length (.string quote) →
      m.EntersAt (front ++ quote :: y ++ quote :: rest) front.length (.string quote) →
      m.classify {} (front ++ quote :: x ++ quote :: rest) =
        m.classify {} (front ++ quote :: y ++ quote :: rest)) ∧
    (newline ∉ x → newline ∉ y → FirstAtEnd m.blockEnd x → FirstAtEnd m.blockEnd y →
      m.EntersAt (front ++ m.blockStart ++ x ++ m.blockEnd ++ rest) front.length .blockComment →
      m.EntersAt (front ++ m.blockStart ++ y ++ m.blockEnd ++ rest) front.length .blockComment →
      m.classify {} (front ++ m.blockStart ++ x ++ m.blockEnd ++ rest) =
        m.classify {} (front ++ m.blockStart ++ y ++ m.blockEnd ++ rest)) := by
  simp only [List.append_assoc, List.cons_append]
  refine ⟨?_, ?_, ?_⟩
  · intro noFeedX noFeedY entersX entersY
    rw [classify_of_ne_nil (by simp), classify_of_ne_nil (by simp),
      Scan.run_line_region nonempty.line noFeedX entersX,
      Scan.run_line_region nonempty.line noFeedY entersY]
  · intro quote quoted noQuoteX noFeedX unescapedX noQuoteY noFeedY unescapedY entersX entersY
    rw [classify_of_ne_nil (by simp), classify_of_ne_nil (by simp),
      Scan.run_string_region quoted noQuoteX noFeedX unescapedX entersX,
      Scan.run_string_region quoted noQuoteY noFeedY unescapedY entersY]
  · intro noFeedX noFeedY firstX firstY entersX entersY
    rw [classify_of_ne_nil (by simp [nonempty.blockEnd]),
      classify_of_ne_nil (by simp [nonempty.blockEnd]),
      Scan.run_block_region nonempty noFeedX firstX entersX,
      Scan.run_block_region nonempty noFeedY firstY entersY]

/-- Inside each region, a marker, a quote of the other kind and a backslash do not matter. -/
theorem Markers.classify_region_congr_slashes :
    let m : Markers := ⟨Text.encode "//", Text.encode "/*", Text.encode "*/"⟩
    m.classify {} (Text.encode "a; // /*'\\ \n'b'\n") =
      m.classify {} (Text.encode "a; //c\n'b'\n") ∧
    m.classify {} (Text.encode "a; \" /*'\\ \"'b'\n") =
      m.classify {} (Text.encode "a; \"c\"'b'\n") ∧
    m.classify {} (Text.encode "a; /* /*'\\ */'b'\n") =
      m.classify {} (Text.encode "a; /*c*/'b'\n") := by
  intro m
  have alike := m.classify_region_congr ⟨by decide, by decide, by decide⟩
    (Text.encode "a; ") (Text.encode "'b'\n") (Text.encode " /*'\\ ") (Text.encode "c")
  refine ⟨?_, ?_, ?_⟩
  · exact alike.1 (by decide) (by decide) (And.intro rfl ⟨rfl, rfl⟩) (And.intro rfl ⟨rfl, rfl⟩)
  · exact alike.2.1 0x22 (by decide) (by decide) (by decide) (by decide) (by decide) (by decide)
      (by decide) (And.intro rfl ⟨rfl, rfl⟩) (And.intro rfl ⟨rfl, rfl⟩)
  · exact alike.2.2 (by decide) (by decide) (by decide) (by decide)
      (And.intro rfl ⟨rfl, rfl⟩) (And.intro rfl ⟨rfl, rfl⟩)

end Bytewise

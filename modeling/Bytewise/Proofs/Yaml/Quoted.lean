import Bytewise.Proofs.Numeral
import Bytewise.Proofs.Text.Encoding
import Bytewise.Yaml.Reader
import Bytewise.Yaml.Writer

/-!
# Quoted scalars read back

`Yaml.ReadsQuoted` says what a quoted scalar is read as, from behind its opening quote to its
closing one. There is one rule for each thing that the writer puts between quotes: a character, a
doubled quote, a space, a line break that stands for a space, line breaks that stand for themselves,
an escape, and a line that is continued behind a backslash. The two styles are then read back by
following the writer through the text, here for double quotes (`Yaml.readsQuoted_escapeFold`).
-/

namespace Bytewise.Yaml

variable {double : Bool} {ws cs rest : List Char} {a b c : Char} {indent count : Nat}

/-- Neither a blank nor a line break. -/
def IsShown (a : Char) : Prop := a ≠ ' ' ∧ a ≠ '\t' ∧ isBreak a = false

instance : Decidable (IsShown a) := inferInstanceAs (Decidable (_ ∧ _ ∧ _))

/-- A text that goes on with a character which is neither a blank nor a line break. -/
def Goes (ws : List Char) : Prop := ∃ a more, ws = a :: more ∧ IsShown a

def GoesOn (ws : List Char) : Prop :=
  ∃ count more, ws = List.replicate count ' ' ++ more ∧ Goes more

/-- The text of a quoted scalar behind its opening quote is read as some characters up to the
closing quote, and the rest is left. -/
def ReadsQuoted (double : Bool) (ws cs rest : List Char) : Prop :=
  ∀ fuel done line column, ws.length < fuel → ∃ line' column',
    quotedFrom double fuel done ⟨ws, line, column⟩ =
      .ok ⟨done.reverse ++ cs, ⟨rest, line', column'⟩⟩

/-- One more at the end of a run is one more in front of it. -/
theorem replicate_append_cons (count : Nat) (a : Char) (cs : List Char) :
    List.replicate count a ++ a :: cs = List.replicate (count + 1) a ++ cs := by
  rw [List.replicate_succ', List.append_assoc]
  rfl

/-! ## Line breaks -/

/-- A document marker begins with its own letter. -/
theorem not_isMarker (word : String) {line column : Nat} {first : Char} {letters : List Char}
    (spelt : word.toList = first :: letters) (differs : first ≠ a) :
    (Cursor.mk (a :: rest) line column).isMarker word = false := by
  simp [Cursor.isMarker, spelt, List.isPrefixOf, differs]

theorem quotedBreaks?_spaces (breaks : List Char) (line column count : Nat) (goes : Goes ws) :
    quotedBreaks? breaks line column (List.replicate count ' ' ++ ws) =
      some (breaks, ⟨ws, line, column + count⟩) := by
  induction count generalizing column with
  | zero =>
      obtain ⟨a, more, rfl, space, tab, break'⟩ := goes
      simp [quotedBreaks?, space, tab, break']
  | succ count ih =>
      have notBreak : isBreak ' ' = false := by decide
      rw [List.replicate_succ, List.cons_append, quotedBreaks?]
      simp [notBreak, ih, Nat.add_assoc, Nat.add_comm 1]

/-- Line breaks are collected up to the indentation of the next line. -/
theorem quotedBreaks?_newLines (breaks : List Char) (line column count : Nat) (goes : Goes ws)
    (indented : 0 < indent) :
    quotedBreaks? breaks line column (List.replicate count '\n' ++ (newLine indent ++ ws)) =
      some (List.replicate (count + 1) '\n' ++ breaks, ⟨ws, line + (count + 1), indent⟩) := by
  induction count generalizing breaks line column with
  | zero =>
      have spaces := quotedBreaks?_spaces ('\n' :: breaks) (line + 1) 0 indent goes
      obtain ⟨indent, rfl⟩ := Nat.exists_eq_succ_of_ne_zero (Nat.ne_of_gt indented)
      have noMarker (word : String) {first : Char} {letters : List Char}
          (spelt : word.toList = first :: letters) (differs : first ≠ ' ') :
          (Cursor.mk (List.replicate (indent + 1) ' ' ++ ws) (line + 1) 0).isMarker word = false :=
        not_isMarker word spelt differs
      rw [List.replicate_zero, List.nil_append, newLine, List.cons_append, quotedBreaks?]
      simp [isBreak, breakChar, noMarker "---" rfl (by decide), noMarker "..." rfl (by decide),
        spaces]
  | succ count ih =>
      have noMarker (word : String) {first : Char} {letters : List Char}
          (spelt : word.toList = first :: letters) (differs : first ≠ '\n') :
          (Cursor.mk (List.replicate count '\n' ++ (newLine indent ++ ws)) (line + 1) 0).isMarker
            word = false := by
        cases count <;> exact not_isMarker word spelt differs
      rw [List.replicate_succ, List.cons_append, quotedBreaks?]
      simp only [isBreak, breakChar, noMarker "---" rfl (by decide), noMarker "..." rfl (by decide),
        ih]
      simp [Nat.add_assoc, Nat.add_comm 1]
      exact replicate_append_cons (count + 1) '\n' breaks

/-! ## Rules -/

namespace ReadsQuoted

attribute [local simp] quotedFrom Cursor.forward

/-- The closing quote of the plainer style is not doubled. -/
theorem closing (single : rest.head? ≠ some '\'') : ReadsQuoted false ('\'' :: rest) [] rest := by
  intro fuel done line column enough
  obtain ⟨fuel, rfl⟩ := Nat.exists_eq_add_one.mpr (Nat.zero_lt_of_lt enough)
  exact ⟨line, column + 1, by simp [quotedFrom, single, Cursor.forward]⟩

theorem closing_double (rest : List Char) : ReadsQuoted true ('"' :: rest) [] rest := by
  intro fuel done line column enough
  obtain ⟨fuel, rfl⟩ := Nat.exists_eq_add_one.mpr (Nat.zero_lt_of_lt enough)
  exact ⟨line, column + 1, by simp⟩

/-- A step of the reader passes over some text, takes it for some characters and goes on. -/
theorem step {ws' : List Char} (more : List Char) (reads : ReadsQuoted double ws cs rest)
    (shorter : ws.length < ws'.length)
    (passes : ∀ fuel done line column, ∃ line' column',
      quotedFrom double (fuel + 1) done ⟨ws', line, column⟩ =
        quotedFrom double fuel (more.reverse ++ done) ⟨ws, line', column'⟩) :
    ReadsQuoted double ws' (more ++ cs) rest := by
  intro fuel done line column enough
  obtain ⟨fuel, rfl⟩ := Nat.exists_eq_add_one.mpr (Nat.zero_lt_of_lt enough)
  obtain ⟨line', column', passed⟩ := passes fuel done line column
  obtain ⟨line'', column'', read⟩ := reads fuel (more.reverse ++ done) line' column' (by omega)
  exact ⟨line'', column'', by rw [passed, read]; simp⟩

theorem doubled (reads : ReadsQuoted false ws cs rest) :
    ReadsQuoted false ('\'' :: '\'' :: ws) ('\'' :: cs) rest := by
  refine reads.step ['\''] (by simp) fun fuel done line column => ?_
  exact ⟨line, column + 2, by simp⟩

theorem char (reads : ReadsQuoted double ws cs rest) (shown : IsShown a)
    (notQuote : a ≠ if double then '"' else '\'') (notEscape : double = true → a ≠ '\\') :
    ReadsQuoted double (a :: ws) (a :: cs) rest := by
  obtain ⟨space, tab, break'⟩ := shown
  refine reads.step [a] (by simp) fun fuel done line column => ⟨line, column + 1, ?_⟩
  cases double <;> simp_all

/-- Line breaks with the indentation of the next line; a single one reads as a space. -/
theorem breaks (reads : ReadsQuoted double ws cs rest) (goes : Goes ws) (indented : 0 < indent)
    (count : Nat) :
    ReadsQuoted double (List.replicate count '\n' ++ (newLine indent ++ ws))
      (foldBreaks (List.replicate (count + 1) '\n') ++ cs) rest := by
  refine reads.step _ (by simp [newLine]; omega) fun fuel done line column => ?_
  refine ⟨line + (count + 1), indent, ?_⟩
  have broken := quotedBreaks?_newLines [] line column count goes indented
  obtain ⟨more, starts⟩ : ∃ more, List.replicate count '\n' ++ (newLine indent ++ ws) =
      '\n' :: more := by
    cases count <;> exact ⟨_, rfl⟩
  rw [starts] at broken ⊢
  have isBroken : isBreak '\n' = true := by decide
  cases double <;>
    simp [isBroken, broken]

/-- Spaces in front of something shown are taken in one step. -/
theorem quotedFrom_spaces (double : Bool) (fuel : Nat) (done : List Char) (line column count : Nat)
    (goes : Goes ws) :
    quotedFrom double (fuel + 1) done ⟨List.replicate (count + 1) ' ' ++ ws, line, column⟩ =
      quotedFrom double fuel (List.replicate (count + 1) ' ' ++ done)
        ⟨ws, line, column + (count + 1)⟩ := by
  obtain ⟨a, more, rfl, space, tab, break'⟩ := goes
  have run : (List.replicate (count + 1) ' ' ++ a :: more).takeWhile
      (fun b => decide (b = ' ') || decide (b = '\t')) = List.replicate (count + 1) ' ' := by
    rw [List.takeWhile_append_of_pos (by simp), List.takeWhile_cons_of_neg (by simp [space, tab]),
      List.append_nil]
  rw [List.replicate_succ, List.cons_append] at run ⊢
  rw [quotedFrom]
  simp only [run]
  cases double <;> simp [break', replicate_append_cons, List.replicate_succ]

/-- A space that is not in front of a line break. The reader takes all the spaces in one step, so
this is no step of its own where another space follows. -/
theorem space (reads : ReadsQuoted double ws cs rest) (goesOn : GoesOn ws) :
    ReadsQuoted double (' ' :: ws) (' ' :: cs) rest := by
  obtain ⟨count, ws, rfl, goes⟩ := goesOn
  cases count with
  | zero =>
      refine reads.step [' '] (by simp) fun fuel done line column => ⟨line, column + 1, ?_⟩
      exact quotedFrom_spaces double fuel done line column 0 goes
  | succ count =>
      intro fuel done line column enough
      obtain ⟨fuel, rfl⟩ := Nat.exists_eq_add_one.mpr (Nat.zero_lt_of_lt enough)
      obtain ⟨line', column', read⟩ := reads (fuel + 1) (' ' :: done) line (column + 1)
        (by simp at enough ⊢; omega)
      rw [quotedFrom_spaces double fuel _ _ _ count goes] at read
      refine ⟨line', column', ?_⟩
      have start : ' ' :: (List.replicate (count + 1) ' ' ++ ws) =
          List.replicate (count + 1 + 1) ' ' ++ ws := rfl
      rw [start, quotedFrom_spaces double fuel _ _ _ (count + 1) goes,
        ← replicate_append_cons]
      rw [Nat.add_assoc, Nat.add_comm 1] at read
      rw [read]
      simp

theorem spaces (reads : ReadsQuoted double ws cs rest) (goes : Goes ws) (count : Nat) :
    ReadsQuoted double (List.replicate count ' ' ++ ws) (List.replicate count ' ' ++ cs) rest := by
  induction count with
  | zero => exact reads
  | succ count ih => exact ih.space ⟨count, ws, rfl, goes⟩

/-- A short escape. -/
theorem short (reads : ReadsQuoted true ws cs rest) (short : shortEscape? a = some c) :
    ReadsQuoted true ('\\' :: a :: ws) (c :: cs) rest := by
  refine reads.step [c] (by simp) fun fuel done line column => ?_
  exact ⟨line, column + 2, by simp [short]⟩

/-- An escape by number, with the digits that its letter asks for. -/
theorem numbered {width : Nat} (reads : ReadsQuoted true ws cs rest)
    (long : shortEscape? a = none) (wide : escapeWidth? a = some width) (positive : 0 < width)
    (fits : c.toNat < 16 ^ width) :
    ReadsQuoted true
      ('\\' :: a :: ((Numeral.zeroPadded 16 width c.toNat).map Char.toUpper ++ ws)) (c :: cs)
      rest := by
  have digits : ∀ d ∈ Numeral.zeroPadded 16 width c.toNat, Numeral.isDigit 16 d = true :=
    fun d => Numeral.isDigit_of_mem_zeroPadded (by decide) (by decide)
  have value := (Numeral.value_map_toUpper digits).trans
    (Numeral.value_zeroPadded (by decide) (by decide) width c.toNat)
  have upper : ((Numeral.zeroPadded 16 width c.toNat).map Char.toUpper).all
      (Numeral.isDigit 16) = true := by
    simp only [List.all_map, List.all_eq_true]
    exact fun d member => Numeral.isDigit_toUpper (digits d member)
  have length : ((Numeral.zeroPadded 16 width c.toNat).map Char.toUpper).length = width := by
    rw [List.length_map, Numeral.length_zeroPadded (by decide) positive fits]
  generalize (Numeral.zeroPadded 16 width c.toNat).map Char.toUpper = ds at value upper length ⊢
  subst length
  refine reads.step [c] (by simp; omega) fun fuel done line column => ?_
  refine ⟨line, column + (2 + ds.length), ?_⟩
  have valid : c.toNat < 0xD800 ∨ 0xDFFF < c.toNat ∧ c.toNat < 0x110000 := c.valid
  have most : ¬ 0x10FFFF < c.toNat := by omega
  have whole : ¬ (0xD800 ≤ c.toNat ∧ c.toNat ≤ 0xDFFF) := by omega
  have behind : ('\\' :: a :: (ds ++ ws)).drop (2 + ds.length) = ws := by
    rw [Nat.add_comm]
    simp
  simp [long, wide, upper, value, most, whole, behind]

/-- The escape of a character. -/
theorem escape (reads : ReadsQuoted true ws cs rest) (c : Char) :
    ReadsQuoted true (escapeOf (.char c) ++ ws) (c :: cs) rest := by
  have valid : c.toNat < 0xD800 ∨ 0xDFFF < c.toNat ∧ c.toNat < 0x110000 := c.valid
  rw [escapeOf.eq_def]
  split
  -- The short escapes come first.
  iterate 15
    next same =>
      cases same
      exact reads.short rfl
  next =>
    have number : (Symbol.char c).codePoint = c.toNat := rfl
    simp only [number]
    by_cases byte : c.toNat < 0x100
    · rw [if_pos byte]
      exact reads.numbered rfl rfl (by decide) byte
    by_cases unit : c.toNat < 0x10000
    · rw [if_neg byte, if_pos unit]
      exact reads.numbered rfl rfl (by decide) unit
    · rw [if_neg byte, if_neg unit]
      exact reads.numbered rfl rfl (by decide) (by omega)

/-- A line that is continued behind a backslash. -/
theorem continued (reads : ReadsQuoted true ws cs rest) (goes : Goes ws) (indented : 0 < indent) :
    ReadsQuoted true ('\\' :: (newLine indent ++ ws)) cs rest := by
  refine reads.step [] (by simp [newLine]; omega) fun fuel done line column => ?_
  refine ⟨line + 1, indent, ?_⟩
  have broken := quotedBreaks?_newLines [] line (column + 1) 0 goes indented
  have isBroken : isBreak '\n' = true := by decide
  simp only [List.replicate_zero, List.nil_append, newLine, List.cons_append] at broken ⊢
  simp [shortEscape?, escapeWidth?, isBroken, broken]

end ReadsQuoted

/-! ## Double quotes -/

/-- Printable characters other than the space are shown. -/
theorem isShown_of_printable (printable : ' ' ≤ c ∧ c ≤ '~') (notSpace : c ≠ ' ') : IsShown c := by
  obtain ⟨low, high⟩ := printable
  have low : 32 ≤ c.toNat := low
  have high : c.toNat ≤ 126 := high
  refine ⟨notSpace, ?_, ?_⟩
  · rintro rfl
    exact absurd low (by decide)
  · have notFeed : c ≠ '\n' := by
      rintro rfl
      exact absurd low (by decide)
    simp only [isBreak, notFeed, decide_false, Bool.false_or, Bool.or_eq_false_iff,
      decide_eq_false_iff_not]
    omega

theorem goes_cons (shown : IsShown a) : Goes (a :: ws) := ⟨a, ws, rfl, shown⟩

theorem Goes.goesOn (goes : Goes ws) : GoesOn ws := ⟨0, ws, rfl, goes⟩

theorem GoesOn.space (goesOn : GoesOn ws) : GoesOn (' ' :: ws) := by
  obtain ⟨count, more, rfl, goes⟩ := goesOn
  exact ⟨count + 1, more, rfl, goes⟩

theorem goes_escapeOf (s : Symbol) (ws : List Char) : Goes (escapeOf s ++ ws) := by
  have begins : ∃ more, escapeOf s = '\\' :: more := by
    rw [escapeOf.eq_def]
    split
    iterate 15
      next => exact ⟨_, rfl⟩
    next =>
      split
      next => exact ⟨_, rfl⟩
      next => split <;> exact ⟨_, rfl⟩
  obtain ⟨more, begins⟩ := begins
  rw [begins]
  exact goes_cons (by decide)

/-- What stands in front of a text on a line that was continued: a space needs an escape there. -/
def lead (t : Text) : List Char := if t.head? = some (.char ' ') then ['\\'] else []

section EscapeFold

variable {limit column : Nat} {first fresh : Bool} {t : Text}

/-- A symbol that needs an escape is written as one, and the line may be continued behind it. -/
theorem escapeFold_of_needsEscape {s : Symbol} (needs : needsEscape s = true) :
    (∃ column', escapeFold limit indent column first fresh (s :: t) =
        escapeOf s ++ escapeFold limit indent column' false true t) ∨
      escapeFold limit indent column first fresh (s :: t) =
        escapeOf s ++ ('\\' :: (newLine indent ++ (lead t ++
          escapeFold limit indent (indent + (lead t).length) false true t))) := by
  rw [escapeFold]
  simp only [needs, ↓reduceIte]
  split
  next =>
    right
    simp [lead]
  next => exact .inl ⟨_, rfl⟩

/-- Any other character is written as it is, and the line may be continued in front of it. -/
theorem escapeFold_of_not_needsEscape (shown : needsEscape (.char c) = false) :
    ∃ column', escapeFold limit indent column first fresh (.char c :: t) =
        c :: escapeFold limit indent column' false false t ∨
      limit < column ∧ escapeFold limit indent column first fresh (.char c :: t) =
        '\\' :: (newLine indent ++ (lead [.char c] ++
          c :: escapeFold limit indent column' false false t)) := by
  have own : (Symbol.char c).char?.getD ' ' = c := rfl
  rw [escapeFold]
  simp only [shown, own, Bool.false_eq_true, ↓reduceIte]
  by_cases folds : (!first && !t.isEmpty && (decide (c = ' ') || fresh) &&
      decide (limit < column)) = true
  · refine ⟨indent + (lead [.char c]).length + 1, .inr ⟨by simp_all, ?_⟩⟩
    rw [if_pos folds]
    simp [lead]
  · exact ⟨column + 1, .inl (if_neg folds)⟩

end EscapeFold

/-- A character without an escape, with what may stand in front of it on a line that was continued.
-/
theorem readsQuoted_of_not_needsEscape (shown : needsEscape (.char c) = false)
    (reads : ReadsQuoted true ws cs rest) (goesOn : GoesOn ws) :
    (ReadsQuoted true (c :: ws) (c :: cs) rest ∧ GoesOn (c :: ws)) ∧
      ReadsQuoted true (lead [.char c] ++ c :: ws) (c :: cs) rest ∧
        Goes (lead [.char c] ++ c :: ws) := by
  simp only [needsEscape, Bool.or_eq_false_iff, decide_eq_false_iff_not, Bool.not_eq_eq_eq_not,
    Bool.not_false, Bool.and_eq_true, decide_eq_true_eq] at shown
  obtain ⟨⟨notQuote, notEscape⟩, printable⟩ := shown
  by_cases space : c = ' '
  · subst space
    exact ⟨⟨reads.space goesOn, goesOn.space⟩, reads.short rfl, goes_cons (by decide)⟩
  · have shown := isShown_of_printable printable space
    have none : lead [.char c] = [] := by simp [lead, space]
    rw [none]
    have reads := reads.char shown (by simpa using notQuote) fun _ => notEscape
    exact ⟨⟨reads, (goes_cons shown).goesOn⟩, reads, goes_cons shown⟩

/-- A text between double quotes is read back from any column on, also behind a line that is
continued. -/
theorem readsQuoted_escapeFold {limit : Nat} (indented : 0 < indent) (narrow : indent < limit)
    (cs rest : List Char) :
    (∀ column first fresh,
      let ws := escapeFold limit indent column first fresh (Text.ofChars cs) ++ '"' :: rest
      ReadsQuoted true ws cs rest ∧ GoesOn ws) ∧
    ∀ column fresh, column ≤ limit →
      let ws := lead (Text.ofChars cs) ++
        (escapeFold limit indent column false fresh (Text.ofChars cs) ++ '"' :: rest)
      ReadsQuoted true ws cs rest ∧ Goes ws := by
  induction cs with
  | nil =>
      have quote : Goes ('"' :: rest) := goes_cons (by decide)
      refine ⟨fun column first fresh => ?_, fun column fresh _ => ?_⟩
      · exact ⟨.closing_double rest, quote.goesOn⟩
      · exact ⟨.closing_double rest, quote⟩
  | cons c cs ih =>
      obtain ⟨anywhere, continued⟩ := ih
      have text : Text.ofChars (c :: cs) = .char c :: Text.ofChars cs := rfl
      -- Behind a line that is continued there is room for a space and its backslash.
      have room : indent + (lead (Text.ofChars cs)).length ≤ limit := by
        rw [lead]
        split <;> simp <;> omega
      have backslash : IsShown '\\' := by decide
      cases needs : needsEscape (.char c) with
      | true =>
          have reads (column : Nat) (first fresh : Bool) :
              let ws := escapeFold limit indent column first fresh (Text.ofChars (c :: cs)) ++
                '"' :: rest
              ReadsQuoted true ws (c :: cs) rest ∧ Goes ws := by
            obtain ⟨column', written⟩ | written :=
              @escapeFold_of_needsEscape indent limit column first fresh (Text.ofChars cs) _ needs
            · rw [text, written, List.append_assoc]
              exact ⟨(anywhere column' false true).1.escape c, goes_escapeOf _ _⟩
            · obtain ⟨reads, goes⟩ := continued _ true room
              rw [text, written]
              simp only [List.append_assoc, List.cons_append]
              exact ⟨(reads.continued goes indented).escape c, goes_escapeOf _ _⟩
          have notSpace : lead (Text.ofChars (c :: cs)) = [] := by
            rw [lead, text, List.head?_cons, if_neg]
            rintro same
            cases same
            cases needs
          refine ⟨fun column first fresh => ?_, fun column fresh _ => ?_⟩
          · exact ⟨(reads column first fresh).1, (reads column first fresh).2.goesOn⟩
          · rw [notSpace]
            exact reads column false fresh
      | false =>
          have plain {ws : List Char} (reads : ReadsQuoted true ws cs rest) (goesOn : GoesOn ws) :=
            readsQuoted_of_not_needsEscape needs reads goesOn
          refine ⟨fun column first fresh => ?_, fun column fresh fits => ?_⟩
          · obtain ⟨column', written | ⟨_, written⟩⟩ :=
              @escapeFold_of_not_needsEscape c indent limit column first fresh (Text.ofChars cs)
                needs
            · obtain ⟨reads, goesOn⟩ := anywhere column' false false
              rw [text, written]
              exact (plain reads goesOn).1
            · obtain ⟨reads, goesOn⟩ := anywhere column' false false
              obtain ⟨reads, goes⟩ := (plain reads goesOn).2
              rw [text, written]
              simp only [List.append_assoc, List.cons_append]
              exact ⟨reads.continued goes indented, (goes_cons backslash).goesOn⟩
          · obtain ⟨column', written | ⟨beyond, _⟩⟩ :=
              @escapeFold_of_not_needsEscape c indent limit column false fresh (Text.ofChars cs)
                needs
            · obtain ⟨reads, goesOn⟩ := anywhere column' false false
              rw [text, written]
              exact (plain reads goesOn).2
            · exact absurd fits (Nat.not_le.mpr beyond)

end Bytewise.Yaml

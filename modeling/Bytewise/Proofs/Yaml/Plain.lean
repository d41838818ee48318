import Bytewise.Proofs.Yaml.Folding

/-!
# Plain scalars read back

A plain scalar is a run of words with gaps between them, and it ends where no word that belongs to
it follows (`Yaml.Ends`): in front of the colon of a key, or in front of a line that starts further
to the left than its continuation lines may. `Yaml.ReadsPlain` says what a plain scalar is read as,
with one rule for each way in which it goes on behind a character. A text that may stand plain has
nothing inside that ends it early, so it is read back from any spelling (`Yaml.Spelt.readsPlain`).
-/

namespace Bytewise.Yaml

variable {least indent k : Nat} {ws cs rest more gap blanks : List Char} {a c before : Char}

/-! ## Gaps -/

/-- The end of the text, or something shown. -/
def Resumes (more : List Char) : Prop := more = [] ∨ Goes more

theorem skipBreaks_spaces (breaks : List Char) (line column count : Nat) (resumes : Resumes more) :
    skipBreaks breaks line column (List.replicate count ' ' ++ more) =
      (breaks, ⟨more, line, column + count⟩) := by
  induction count generalizing column with
  | zero =>
      obtain rfl | ⟨a, more, rfl, space, _, break'⟩ := resumes
      · rfl
      · simp [skipBreaks, space, break']
  | succ count ih =>
      have notBreak : isBreak ' ' = false := by decide
      rw [List.replicate_succ, List.cons_append, skipBreaks]
      simp [notBreak, ih, Nat.add_assoc, Nat.add_comm 1]

theorem plainGap_newLine (line column k : Nat) (resumes : Resumes more) :
    plainGap ⟨newLine k ++ more, line, column⟩ = ([' '], ⟨more, line + 1, k⟩) := by
  have passed : skipBreaks [] line column (newLine k ++ more) = (['\n'], ⟨more, line + 1, k⟩) := by
    have spaces := skipBreaks_spaces ['\n'] (line + 1) 0 k resumes
    rw [Nat.zero_add] at spaces
    rw [newLine, List.cons_append, skipBreaks]
    cases k with
    | zero => simp_all [isBreak, breakChar]
    | succ k =>
        have noMarker (word : String) {first : Char} {letters : List Char}
            (spelt : word.toList = first :: letters) (differs : first ≠ ' ') :
            (Cursor.mk (List.replicate (k + 1) ' ' ++ more) (line + 1) 0).isMarker word = false :=
          not_isMarker word spelt differs
        simp [isBreak, breakChar, noMarker "---" rfl (by decide), noMarker "..." rfl (by decide),
          spaces]
  have isBroken : isBreak '\n' = true := by decide
  rw [newLine, List.cons_append] at passed ⊢
  simp [plainGap, Cursor.forward, isBroken, passed, foldBreaks]

theorem plainGap_spaces (line column count : Nat) (goes : Goes ws) :
    plainGap ⟨List.replicate count ' ' ++ ws, line, column⟩ =
      (List.replicate count ' ', ⟨ws, line, column + count⟩) := by
  obtain ⟨a, more, rfl, space, _, break'⟩ := goes
  have run : (List.replicate count ' ' ++ a :: more).takeWhile (fun b => decide (b = ' ')) =
      List.replicate count ' ' := by
    rw [List.takeWhile_append_of_pos (by simp), List.takeWhile_cons_of_neg (by simp [space]),
      List.append_nil]
  simp [plainGap, run, Cursor.forward, break']

/-! ## Ends -/

/-- A plain scalar ends here: no word goes on, and none that belongs to it follows. -/
structure Ends (least : Nat) (rest : List Char) : Prop where
  noWord : wordLength false rest = 0
  noMore : ∀ line column, ∃ gap next, plainGap ⟨rest, line, column⟩ = (gap, next) ∧
    (gap = [] ∨ next.column < least ∨ wordLength false next.rest = 0)

theorem ends_colon (blank : isSpaceOrEnd rest.head? = true) : Ends least (':' :: rest) where
  noWord := by simp [wordLength, endsWord, blank]
  noMore := fun line column =>
    ⟨[], _, plainGap_spaces line column 0 (goes_cons (by decide)), .inl rfl⟩

/-- A text that starts with a token: no blank, no line break and no comment. -/
def IsToken (more : List Char) : Prop := ∃ a ms, more = a :: ms ∧ IsShown a ∧ a ≠ '#'

theorem IsToken.goes (token : IsToken more) : Goes more := by
  obtain ⟨a, ms, rfl, shown, _⟩ := token
  exact goes_cons shown

/-- What may stand on the line below a scalar: nothing, or a token that starts further to the left
than its continuation lines would. -/
def Below (least k : Nat) (more : List Char) : Prop := more = [] ∨ IsToken more ∧ k < least

theorem Below.resumes (below : Below least k more) : Resumes more :=
  below.imp_right fun right => right.1.goes

theorem ends_newLine (below : Below least k more) : Ends least (newLine k ++ more) where
  noWord := rfl
  noMore := by
    intro line column
    refine ⟨[' '], _, plainGap_newLine line column k below.resumes, .inr ?_⟩
    obtain rfl | ⟨_, left⟩ := below
    · exact .inr rfl
    · exact .inl left

/-! ## Rules -/

/-- A plain scalar is read as some characters, and the rest is left. -/
structure ReadsPlain (least : Nat) (ws cs rest : List Char) : Prop where
  word : 0 < wordLength false ws
  reads : ∀ fuel done gap line column, ws.length < fuel → least ≤ column + 1 → ∃ line' column',
    plainFrom false least fuel done gap ⟨ws, line, column⟩ =
      ⟨done ++ gap ++ cs, ⟨rest, line', column'⟩⟩

theorem IsInk.not_isSpaceOrEnd (ink : IsInk a) : isSpaceOrEnd (some a) = false := by
  obtain ⟨space, tab, break'⟩ := ink.isShown
  simp [isSpaceOrEnd, space, tab, break']

/-- A printable character ends no word, unless it is a colon in front of a blank. -/
theorem endsWord_of_isInk (ink : IsInk a) {next : Option Char}
    (colon : a = ':' → isSpaceOrEnd next = false) : endsWord false a next = false := by
  rw [endsWord, ink.not_isSpaceOrEnd]
  by_cases isColon : a = ':'
  · simp [colon isColon]
  · simp [isColon]

/-- A scalar that ends behind a word. -/
theorem plainFrom_word (inhabited : cs ≠ []) (size : wordLength false (cs ++ rest) = cs.length)
    (ends : Ends least rest) (fuel : Nat) (done gap : List Char) (line column : Nat) :
    plainFrom false least (fuel + 1) done gap ⟨cs ++ rest, line, column⟩ =
      ⟨done ++ gap ++ cs, ⟨rest, line, column + cs.length⟩⟩ := by
  obtain ⟨gap', next, passed, stops⟩ := ends.noMore line (column + cs.length)
  rw [plainFrom]
  simp only [size, Cursor.forward, List.drop_left, List.take_left, passed]
  rw [if_neg (by simpa using inhabited), if_pos]
  simp only [Bool.not_false, Bool.true_and, Bool.or_eq_true, List.isEmpty_iff, decide_eq_true_eq]
  tauto

namespace ReadsPlain

theorem last (own : endsWord false a rest.head? = false) (ends : Ends least rest) :
    ReadsPlain least (a :: rest) [a] rest where
  word := by simp [wordLength, own]
  reads := by
    intro fuel done gap line column enough _
    obtain ⟨fuel, rfl⟩ := Nat.exists_eq_add_one.mpr (Nat.zero_lt_of_lt enough)
    have size : wordLength false ([a] ++ rest) = 1 := by simp [wordLength, own, ends.noWord]
    exact ⟨line, column + 1, plainFrom_word (List.cons_ne_nil a []) size ends _ _ _ _ _⟩

theorem char (own : endsWord false a ws.head? = false) (reads : ReadsPlain least ws cs rest) :
    ReadsPlain least (a :: ws) (a :: cs) rest where
  word := by simp [wordLength, own]
  reads := by
    intro fuel done gap line column enough right
    obtain ⟨fuel, rfl⟩ := Nat.exists_eq_add_one.mpr (Nat.zero_lt_of_lt enough)
    obtain ⟨line', column', read⟩ :=
      reads.reads (fuel + 1) (done ++ gap ++ [a]) [] line (column + 1)
        (by simp at enough; omega) (by omega)
    refine ⟨line', column', ?_⟩
    -- Reading on from the second character of a word gives the same as from the first.
    have same : plainFrom false least (fuel + 1) done gap ⟨a :: ws, line, column⟩ =
        plainFrom false least (fuel + 1) (done ++ gap ++ [a]) [] ⟨ws, line, column + 1⟩ := by
      have size : wordLength false (a :: ws) = wordLength false ws + 1 := by simp [wordLength, own]
      have word := Nat.ne_of_gt reads.word
      rw [plainFrom, plainFrom]
      simp [size, word, Cursor.forward, Nat.add_assoc, Nat.add_comm 1]
    rw [same, read]
    simp

/-- A gap behind a character, and then another word. -/
theorem behind_gap (own : endsWord false a (blanks ++ ws).head? = false)
    (blank : wordLength false (blanks ++ ws) = 0) (inhabited : gap ≠ [])
    (reads : ReadsPlain least ws cs rest) (noComment : ws.head? ≠ some '#')
    (passes : ∀ line column, least ≤ column → ∃ line' column', least ≤ column' ∧ 0 < column' ∧
      plainGap ⟨blanks ++ ws, line, column⟩ = (gap, ⟨ws, line', column'⟩)) :
    ReadsPlain least (a :: (blanks ++ ws)) (a :: (gap ++ cs)) rest where
  word := by simp only [wordLength, own, Bool.false_eq_true, ↓reduceIte, Nat.succ_pos]
  reads := by
    intro fuel done gap₀ line column enough right
    obtain ⟨fuel, rfl⟩ := Nat.exists_eq_add_one.mpr (Nat.zero_lt_of_lt enough)
    obtain ⟨line', column', inside, indented, passed⟩ := passes line (column + 1) right
    obtain ⟨line'', column'', read⟩ := reads.reads fuel (done ++ gap₀ ++ [a]) gap line' column'
      (by simp at enough; omega) (by omega)
    refine ⟨line'', column'', ?_⟩
    have size : wordLength false (a :: (blanks ++ ws)) = 1 := by
      simp only [wordLength, own, blank, Bool.false_eq_true, ↓reduceIte]
    have word := Nat.ne_of_gt reads.word
    have nonempty : ws ≠ [] := by
      rintro rfl
      exact word rfl
    have notEnd : (Cursor.mk ws line' column').atEnd = false := by
      simp [Cursor.atEnd, Cursor.isMarker, nonempty, Nat.ne_of_gt indented]
    rw [plainFrom]
    simp only [size, Cursor.forward, List.drop_succ_cons, List.drop_zero, passed,
      List.take_succ_cons, List.take_zero]
    rw [if_neg (by decide), if_neg, read]
    · simp
    · simp [inhabited, noComment, notEnd, word, inside]

end ReadsPlain

/-! ## Texts -/

/-- What keeps a text from being ended early, behind some character: no indicator inside, no line
break and no space at the end. -/
structure Continues (before : Char) (cs : List Char) : Prop where
  noIndicator : hasInnerIndicator before cs = false
  oneLine : '\n' ∉ cs
  noSpace : cs.getLast? ≠ some ' '

theorem Continues.tail (continues : Continues before (a :: cs)) : Continues a cs where
  noIndicator := by
    have none := continues.noIndicator
    simp only [hasInnerIndicator, Bool.or_eq_false_iff] at none
    exact none.2
  oneLine := fun member => continues.oneLine (List.mem_cons_of_mem a member)
  noSpace := by
    have last := continues.noSpace
    cases cs with
    | nil => simp
    | cons c cs => simpa using last

theorem Continues.behind_spaces {count : Nat}
    (continues : Continues before (List.replicate (count + 1) ' ' ++ cs)) : Continues ' ' cs := by
  induction count generalizing before with
  | zero => exact continues.tail
  | succ count ih => exact ih continues.tail

/-- A colon stands in front of something shown. -/
theorem Continues.not_isGap (continues : Continues before (':' :: cs)) :
    isGap cs.head? = false := by
  have none := continues.noIndicator
  simp only [hasInnerIndicator, Bool.or_eq_false_iff, Bool.and_eq_false_imp, decide_eq_true_eq,
    forall_const] at none
  exact none.1.1

/-- So what stands in front of a space is no colon. -/
theorem Continues.ne_colon {next : Option Char} (continues : Continues before (a :: ' ' :: cs))
    (isColon : a = ':') : isSpaceOrEnd next = false := by
  subst isColon
  cases continues.not_isGap

/-- No comment starts behind a space. -/
theorem Continues.head?_ne (continues : Continues ' ' cs) : cs.head? ≠ some '#' := by
  rintro head
  cases cs with
  | nil => cases head
  | cons c cs =>
      cases head
      have none := continues.noIndicator
      simp [hasInnerIndicator, isGap] at none

theorem Spelt.head? (spelt : Spelt false indent cs ws) (next : NotBlank cs) :
    ws.head? = cs.head? := by
  cases spelt with
  | nil => rfl
  | char => rfl
  | quote quoted => cases quoted
  | spaces count => exact absurd rfl (next ' ' rfl).1
  | folded => exact absurd rfl (next ' ' rfl).1
  | breaks count => exact absurd rfl (next '\n' rfl).2

theorem Spelt.noComment (spelt : Spelt false indent cs ws) (next : NotBlank cs)
    (inhabited : cs ≠ []) (continues : Continues ' ' cs) : (ws ++ rest).head? ≠ some '#' := by
  obtain ⟨c, cs, rfl⟩ := List.exists_cons_of_ne_nil inhabited
  rw [List.head?_append, spelt.head? next]
  exact continues.head?_ne

/-- A text is read back from any spelling in which its continuation lines stand far enough to the
right, behind a character or from its own first one. -/
theorem Spelt.readsPlain (spelt : Spelt false indent cs ws) (ends : Ends least rest)
    (inside : least ≤ indent) (indented : 0 < indent) :
    (∀ before a, IsInk a → Continues before (a :: cs) →
      ReadsPlain least (a :: (ws ++ rest)) (a :: cs) rest) ∧
    ∀ before, NotBlank cs → cs ≠ [] → Continues before cs →
      ReadsPlain least (ws ++ rest) cs rest := by
  induction spelt with
  | nil =>
      refine ⟨fun before a ink continues => .last (endsWord_of_isInk ink ?_) ends, ?_⟩
      · rintro rfl
        cases continues.not_isGap
      · exact fun _ _ inhabited => absurd rfl inhabited
  | @char c cs ws ink own behind ih =>
      refine ⟨fun before a inkA continues => ?_, fun before _ _ continues => ?_⟩
      · refine .char (endsWord_of_isInk inkA fun _ => ?_) (ih.1 a c ink continues.tail)
        exact ink.not_isSpaceOrEnd
      · exact ih.1 before c ink continues
  | quote quoted => cases quoted
  | @spaces cs ws count next behind ih =>
      refine ⟨fun before a ink continues => ?_, fun _ next => absurd rfl (next ' ' rfl).1⟩
      have behindSpaces := continues.tail.behind_spaces
      have inhabited : cs ≠ [] := by
        rintro rfl
        exact continues.tail.noSpace (by simp [List.getLast?_replicate])
      rw [List.append_assoc]
      refine (ih.2 ' ' next inhabited behindSpaces).behind_gap ?_ rfl (by simp) ?_ ?_
      · exact endsWord_of_isInk ink continues.ne_colon
      · exact behind.noComment next inhabited behindSpaces
      · intro line column right
        exact ⟨line, column + (count + 1), by omega, by omega,
          plainGap_spaces _ _ _ (behind.goes next fun empty => absurd empty inhabited)⟩
  | @folded cs ws inhabited next behind ih =>
      refine ⟨fun before a ink continues => ?_, fun _ next => absurd rfl (next ' ' rfl).1⟩
      rw [List.append_assoc, ← List.singleton_append (x := ' ')]
      refine (ih.2 ' ' next inhabited continues.tail.tail).behind_gap ?_ rfl (by simp) ?_ ?_
      · exact endsWord_of_isInk ink continues.ne_colon
      · exact behind.noComment next inhabited continues.tail.tail
      · intro line column right
        exact ⟨line + 1, indent, inside, indented, plainGap_newLine _ _ _
          (.inr (behind.goes next fun empty => absurd empty inhabited))⟩
  | @breaks cs ws count next behind ih =>
      refine ⟨fun before a ink continues => ?_, fun _ next => absurd rfl (next '\n' rfl).2⟩
      exact absurd (List.mem_cons_of_mem a List.mem_cons_self) continues.oneLine

end Bytewise.Yaml

import Bytewise.Proofs.Yaml.Quoted

/-!
# Folded text

A text that is written plain or in single quotes goes over to the page piece by piece: a character
as itself, a quote doubled, spaces as they are, a single space as a line break where the line is
long, and line breaks as one more than there are (`Yaml.Spelt`). What the writer makes of a text is
such a spelling (`Yaml.spelt_fold`), whatever the column and the width of the line are. Since both
readers undo a spelling piece by piece, where exactly lines are broken does not matter any more.
-/

namespace Bytewise.Yaml

variable {quotes first : Bool} {limit indent column count : Nat} {cs ws rest : List Char}
  {a c d : Char}

/-- A printable character other than the space. -/
structure IsInk (c : Char) : Prop where
  printable : ' ' ≤ c ∧ c ≤ '~'
  notSpace : c ≠ ' '

instance : Decidable (IsInk c) :=
  decidable_of_iff ((' ' ≤ c ∧ c ≤ '~') ∧ c ≠ ' ')
    ⟨fun ⟨printable, notSpace⟩ => ⟨printable, notSpace⟩, fun ink => ⟨ink.printable, ink.notSpace⟩⟩

theorem IsInk.isShown (ink : IsInk c) : IsShown c := isShown_of_printable ink.printable ink.notSpace

theorem IsInk.notFeed (ink : IsInk c) : c ≠ '\n' := by
  rintro rfl
  exact absurd ink.printable.1 (by decide)

/-- A text that does not go on with a space or a line break. -/
def NotBlank (cs : List Char) : Prop := ∀ c, cs.head? = some c → c ≠ ' ' ∧ c ≠ '\n'

/-- How a text stands on the page, with continuation lines at an indentation. -/
inductive Spelt (quotes : Bool) (indent : Nat) : List Char → List Char → Prop where
  | nil : Spelt quotes indent [] []
  | char {c : Char} {cs ws : List Char} (ink : IsInk c) (own : quotes = true → c ≠ '\'')
      (behind : Spelt quotes indent cs ws) : Spelt quotes indent (c :: cs) (c :: ws)
  | quote {cs ws : List Char} (quoted : quotes = true) (behind : Spelt quotes indent cs ws) :
      Spelt quotes indent ('\'' :: cs) ('\'' :: '\'' :: ws)
  | spaces {cs ws : List Char} (count : Nat) (next : NotBlank cs)
      (behind : Spelt quotes indent cs ws) :
      Spelt quotes indent (List.replicate (count + 1) ' ' ++ cs)
        (List.replicate (count + 1) ' ' ++ ws)
  | folded {cs ws : List Char} (inhabited : cs ≠ []) (next : NotBlank cs)
      (behind : Spelt quotes indent cs ws) : Spelt quotes indent (' ' :: cs) (newLine indent ++ ws)
  | breaks {cs ws : List Char} (count : Nat) (next : NotBlank cs)
      (behind : Spelt quotes indent cs ws) :
      Spelt quotes indent (List.replicate (count + 1) '\n' ++ cs)
        (List.replicate (count + 1) '\n' ++ (newLine indent ++ ws))

/-! ## The writer -/

theorem fold_ink (ink : IsInk c) (rest : List Char) :
    ∃ column', fold quotes limit indent column first (c :: rest) =
      (if c = '\'' && quotes then ['\'', '\''] else [c]) ++
        fold quotes limit indent column' false rest := by
  have feed := ink.notFeed
  have space := ink.notSpace
  cases rest with
  | nil =>
      refine ⟨column, ?_⟩
      simp [fold, feed]
  | cons next rest =>
      by_cases quote : (decide (c = '\'') && quotes) = true
      · refine ⟨column + 2, ?_⟩
        simp [fold, feed, space, quote]
      · refine ⟨column + 1, ?_⟩
        simp [fold, feed, space, quote]

theorem fold_breaks (count : Nat) (next : cs.head? ≠ some '\n') :
    fold quotes limit indent column first (List.replicate (count + 1) '\n' ++ cs) =
      List.replicate (count + 1) '\n' ++
        (newLine indent ++ fold quotes limit indent indent false cs) := by
  induction count generalizing column first with
  | zero =>
      cases cs with
      | nil => simp [fold]
      | cons c cs =>
          have notFeed : c ≠ '\n' := by simpa using next
          simp [fold, notFeed]
  | succ count ih =>
      have written : fold quotes limit indent column first
          (List.replicate (count + 1 + 1) '\n' ++ cs) =
          '\n' :: fold quotes limit indent 0 false (List.replicate (count + 1) '\n' ++ cs) := by
        simp [List.replicate_succ, fold]
      rw [written, ih]
      rfl

theorem keepSpaces_append (run cs : List Char) (column : Nat) :
    fold.keepSpaces quotes limit indent run.length (run ++ cs) column =
      run ++ fold quotes limit indent (column + run.length) false cs := by
  induction run generalizing column with
  | nil => simp [fold.keepSpaces]
  | cons c run ih =>
      simp [fold.keepSpaces, ih, Nat.add_assoc, Nat.add_comm 1]

/-- Several spaces are kept. -/
theorem fold_spaces (count : Nat) (next : cs.head? ≠ some ' ') :
    ∃ column', fold quotes limit indent column first (List.replicate (count + 2) ' ' ++ cs) =
      List.replicate (count + 2) ' ' ++ fold quotes limit indent column' false cs := by
  have run : (List.replicate (count + 1) ' ' ++ cs).takeWhile (fun c => decide (c = ' ')) =
      List.replicate (count + 1) ' ' := by
    rw [List.takeWhile_append_of_pos (by simp)]
    cases cs with
    | nil => simp
    | cons c cs => simpa using next
  have written : fold quotes limit indent column first (List.replicate (count + 2) ' ' ++ cs) =
      ' ' :: fold.keepSpaces quotes limit indent (List.replicate (count + 1) ' ').length
        (List.replicate (count + 1) ' ' ++ cs) (column + 1) := by
    rw [List.replicate_succ, List.replicate_succ] at *
    simp only [List.cons_append] at run ⊢
    simp [fold, run]
  exact ⟨_, written.trans (congrArg _ (keepSpaces_append _ _ _))⟩

/-- A single space is kept or makes a line break. -/
theorem fold_space (next : NotBlank cs) :
    (∃ column', fold quotes limit indent column first (' ' :: cs) =
        ' ' :: fold quotes limit indent column' false cs) ∨
      cs ≠ [] ∧ fold quotes limit indent column first (' ' :: cs) =
        newLine indent ++ fold quotes limit indent indent false cs := by
  cases cs with
  | nil => exact .inl ⟨column, by simp [fold]⟩
  | cons c cs =>
      have notSpace : c ≠ ' ' := (next c rfl).1
      by_cases broken : (decide (limit < column) && !first) = true
      · refine .inr ⟨List.cons_ne_nil _ _, ?_⟩
        simp_all [fold]
      · refine .inl ⟨column + 1, ?_⟩
        simp_all [fold]

/-- What can be written without escapes. -/
structure Foldable (cs : List Char) : Prop where
  shown : ∀ c ∈ cs, isSpecial c = false
  noBreakAfterSpace : hasPair ' ' '\n' cs = false
  noSpaceAfterBreak : hasPair '\n' ' ' cs = false

/-- A pair of characters is also one in a longer text. -/
theorem hasPair_of_cons {x : Char} (pair : hasPair a c (x :: cs) = false) :
    hasPair a c cs = false := by
  cases cs with
  | nil => rfl
  | cons y cs => simp_all [hasPair]

theorem Foldable.tail (foldable : Foldable (c :: cs)) : Foldable cs where
  shown := fun d member => foldable.shown d (List.mem_cons_of_mem c member)
  noBreakAfterSpace := hasPair_of_cons foldable.noBreakAfterSpace
  noSpaceAfterBreak := hasPair_of_cons foldable.noSpaceAfterBreak

theorem Foldable.behind {ds : List Char} (foldable : Foldable (ds ++ cs)) : Foldable cs := by
  induction ds with
  | nil => exact foldable
  | cons d ds ih => exact ih foldable.tail

theorem head?_ne_of_hasPair (pair : hasPair a c (List.replicate (count + 1) a ++ cs) = false) :
    cs.head? ≠ some c := by
  induction count with
  | zero =>
      cases cs with
      | nil => simp
      | cons d cs => simp_all [hasPair]
  | succ count ih => exact ih (hasPair_of_cons pair)

theorem exists_run (a : Char) (cs : List Char) :
    ∃ count more, a :: cs = List.replicate (count + 1) a ++ more ∧ more.head? ≠ some a := by
  induction cs with
  | nil => exact ⟨0, [], rfl, by simp⟩
  | cons c cs ih =>
      by_cases same : c = a
      · obtain ⟨count, more, run, next⟩ := ih
        exact ⟨count + 1, more, by rw [same, run]; rfl, next⟩
      · exact ⟨0, c :: cs, rfl, by simpa using same⟩

theorem isInk_of_not_isSpecial (shown : isSpecial c = false) (notSpace : c ≠ ' ')
    (notFeed : c ≠ '\n') : IsInk c := by
  refine ⟨?_, notSpace⟩
  simpa [isSpecial, notFeed] using shown

/-- What the writer makes of a text is a spelling of it. -/
theorem spelt_fold (foldable : Foldable cs) (column : Nat) (first : Bool) :
    Spelt quotes indent cs (fold quotes limit indent column first cs) := by
  -- The writer takes spaces and line breaks run by run.
  induction size : cs.length using Nat.strongRecOn generalizing cs column first with
  | ind size ih =>
    subst size
    cases cs with
    | nil =>
        rw [fold]
        exact .nil
    | cons c cs =>
        by_cases space : c = ' '
        · subst space
          obtain ⟨count, more, run, next⟩ := exists_run ' ' cs
          rw [run] at foldable ih ⊢
          have next : NotBlank more := by
            intro c head
            refine ⟨fun same => next (same ▸ head), fun same => ?_⟩
            exact head?_ne_of_hasPair foldable.noBreakAfterSpace (same ▸ head)
          have behind := ih more.length (by simp) foldable.behind
          cases count with
          | zero =>
              obtain ⟨column', written⟩ | ⟨inhabited, written⟩ := fold_space next
              · exact written ▸ .spaces 0 next (behind column' false rfl)
              · exact written ▸ .folded inhabited next (behind indent false rfl)
          | succ count =>
              obtain ⟨column', written⟩ := fold_spaces count fun head => (next _ head).1 rfl
              exact written ▸ .spaces (count + 1) next (behind column' false rfl)
        by_cases feed : c = '\n'
        · subst feed
          obtain ⟨count, more, run, next⟩ := exists_run '\n' cs
          rw [run] at foldable ih ⊢
          have behind := ih more.length (by simp) foldable.behind
          rw [fold_breaks count next]
          refine .breaks count (fun c head => ⟨fun same => ?_, fun same => ?_⟩)
            (behind indent false rfl)
          · exact head?_ne_of_hasPair foldable.noSpaceAfterBreak (same ▸ head)
          · exact next (same ▸ head)
        · have ink := isInk_of_not_isSpecial (foldable.shown c List.mem_cons_self) space feed
          have behind := ih cs.length (by simp) foldable.tail
          obtain ⟨column', written⟩ := fold_ink ink cs
          rw [written]
          split
          next quote =>
            simp only [Bool.and_eq_true, decide_eq_true_eq] at quote
            obtain ⟨rfl, quoted⟩ := quote
            exact .quote quoted (behind column' false rfl)
          next plain =>
            refine .char ink (fun quoted quote => plain ?_) (behind column' false rfl)
            simp [quoted, quote]

theorem foldable_of_styleOf (style : styleOf cs ≠ .double) : Foldable cs := by
  rw [styleOf] at style
  split at style
  next => exact absurd rfl style
  next foldable =>
    simp only [Bool.not_eq_true, Bool.or_eq_false_iff, List.any_eq_false] at foldable
    exact ⟨foldable.1.1, foldable.1.2, foldable.2⟩

theorem writeText_ofChars (cs : List Char) :
    writeText limit indent column (Text.ofChars cs) =
      match styleOf cs with
      | .plain => fold false limit indent column false cs
      | .single => '\'' :: fold true limit indent (column + 1) true cs ++ ['\'']
      | .double =>
        '"' :: escapeFold limit indent (column + 1) true true (Text.ofChars cs) ++ ['"'] := by
  have chars := Text.map_getD_ofChars '\uffff' cs
  cases style : styleOf cs with
  | plain | single | double => simp only [writeText, chars, style]

/-! ## Single quotes -/

/-- A spelling begins with a blank only if the text does. -/
theorem Spelt.goes (spelt : Spelt quotes indent cs ws) (next : NotBlank cs)
    (behind : cs = [] → Goes rest) : Goes (ws ++ rest) := by
  cases spelt with
  | nil => exact behind rfl
  | char ink => exact goes_cons ink.isShown
  | quote => exact goes_cons (by decide)
  | spaces count => exact absurd rfl (next ' ' rfl).1
  | folded => exact absurd rfl (next ' ' rfl).1
  | breaks count => exact absurd rfl (next '\n' rfl).2

/-- A text between single quotes is read back. -/
theorem Spelt.readsQuoted (spelt : Spelt true indent cs ws) (indented : 0 < indent)
    (closed : rest.head? ≠ some '\'') : ReadsQuoted false (ws ++ '\'' :: rest) cs rest := by
  have quote : Goes ('\'' :: rest) := goes_cons (by decide)
  induction spelt with
  | nil => exact .closing closed
  | char ink own _ ih => exact ih.char ink.isShown (own rfl) nofun
  | quote _ _ ih => exact ih.doubled
  | spaces count next behind ih =>
      rw [List.append_assoc]
      exact ih.spaces (behind.goes next fun _ => quote) (count + 1)
  | folded _ next behind ih =>
      rw [List.append_assoc]
      exact ih.breaks (behind.goes next fun _ => quote) indented 0
  | breaks count next behind ih =>
      rw [List.append_assoc, List.append_assoc]
      exact ih.breaks (behind.goes next fun _ => quote) indented (count + 1)

end Bytewise.Yaml

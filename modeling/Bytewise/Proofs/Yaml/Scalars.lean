import Bytewise.Proofs.Path
import Bytewise.Proofs.Yaml.Nodes
import Bytewise.Proofs.Yaml.Plain

/-!
# Scalars read back

The writer lets a text stand plain only if the same tests that the reader resolves it by take it for
a text (`Yaml.resolve_of_isPlainWord`), and a decimal numeral is taken for the number it spells
(`Yaml.resolve_decimal`). So the node that a scalar is written as stands for its value
(`Yaml.means_text`), and it is read back wherever its continuation lines stand far enough to the
right (`Yaml.readsScalar_text`): whichever of the three styles the writer chose, the reader sees it
by the first character.
-/

namespace Bytewise.Yaml

variable {least limit indent column k n : Nat} {ws cs rest more : List Char} {a c : Char}
  {v : Value}

/-! ## The value of a plain scalar -/

theorem resolve_of_isPlainWord (word : isPlainWord cs = true) :
    resolve cs = .ok (.text (Text.ofChars cs)) := by
  simp only [isPlainWord, Bool.not_eq_eq_eq_not, Bool.not_true, Bool.or_eq_false_iff,
    Option.isSome_eq_false_iff, Option.isNone_iff_eq_none] at word
  obtain ⟨⟨⟨⟨⟨notNull, notBool⟩, notWhole⟩, notFraction⟩, notMoment⟩, notReserved⟩ := word
  simp [resolve, notNull, notBool, notWhole, notFraction, notMoment, notReserved]

theorem resolve_bool (b : Bool) :
    resolve (if b then "true".toList else "false".toList) = .ok (.bool b) := by
  cases b <;> rfl

/-- A word is spelt with its own first letter, small or capital. -/
theorem not_isSpelling (word : String) {first : Char} {letters : List Char}
    (spelt : word.toList = first :: letters) (small : c ≠ first) (capital : c ≠ first.toUpper) :
    isSpelling word (c :: cs) = false := by
  simp [isSpelling, spelt, small, capital]

theorem cutColons_of_not_mem (absent : ':' ∉ cs) : cutColons cs = [cs] := by
  have absent : Symbol.char ':' ∉ Text.ofChars cs := by
    intro member
    obtain ⟨c, inside, same⟩ := List.mem_map.mp member
    cases same
    exact absent inside
  have back : (Text.ofChars cs).filterMap Symbol.char? = cs := by
    rw [Text.ofChars, List.filterMap_map]
    exact List.filterMap_some
  rw [cutColons, Text.splitAt_of_not_mem absent, List.map_singleton, back]

theorem between_of_isDigit (digit : Numeral.isDigit 10 c = true) (notZero : c ≠ '0') :
    '1' ≤ c ∧ c ≤ '9' := by
  revert notZero
  revert digit
  apply Numeral.forall_isDigit
  decide

theorem wholeNotation?_digits (n : Nat) :
    wholeNotation? (Numeral.digits 10 n) = some .decimal := by
  have digits : ∀ c ∈ Numeral.digits 10 n, Numeral.isDigit 10 c = true :=
    fun c => Numeral.isDigit_of_mem_digits (by decide) (by decide)
  obtain ⟨c, cs, written⟩ :=
    List.exists_cons_of_ne_nil (Numeral.digits_ne_nil (by decide : 1 < 10) n)
  rw [written] at digits ⊢
  by_cases zero : c = '0'
  · subst zero
    rw [((Numeral.digits_eq_zero_cons_iff (by decide) (by decide)).mp written).2]
    rfl
  have first := between_of_isDigit (digits c List.mem_cons_self) zero
  have absent : ':' ∉ c :: cs := fun member => absurd (digits _ member) (by decide)
  have body : allOf isDecimal (c :: cs) = true := by
    simp only [allOf, isDecimal, List.isEmpty_cons, Bool.not_false, Bool.true_and, List.all_eq_true]
    exact fun d member => by rw [digits d member, Bool.true_or]
  rw [wholeNotation?.eq_def]
  split
  iterate 4
    next same => exact absurd (List.cons.inj same).1 zero
  next => simp [cutColons_of_not_mem absent, body, first]

/-- A date has a dash behind four digits. -/
theorem not_isMoment (noDash : (takeDigits? 4 4 cs).bind (takeChar? '-') = none) :
    isMoment cs = false := by
  cases taken : takeDigits? 4 4 cs with
  | none => simp [isMoment, taken]
  | some rest =>
      rw [taken, Option.bind_some] at noDash
      simp [isMoment, taken, noDash]

theorem not_isMoment_decimal (z : Int) : isMoment (Numeral.decimal z) = false := by
  apply not_isMoment
  cases z with
  | ofNat n =>
      rw [Numeral.decimal, takeDigits?]
      split
      next =>
        rw [Option.bind_some]
        cases left : (Numeral.digits 10 n).drop _ with
        | nil => rfl
        | cons c rest =>
            have member : c ∈ Numeral.digits 10 n :=
              List.mem_of_mem_drop (left ▸ List.mem_cons_self)
            have notDash : c ≠ '-' := fun same => Numeral.minus_not_mem_digits n (same ▸ member)
            simp [takeChar?, notDash]
      next => rfl
  | negSucc n => rfl

theorem readWhole_digits (short : (Numeral.digits 10 n).length ≤ Numeral.digitLimit) :
    readWhole .decimal (Numeral.digits 10 n) = .ok n := by
  have kept : (Numeral.digits 10 n).filter (· != '_') = Numeral.digits 10 n := by
    refine List.filter_eq_self.mpr fun c member => ?_
    have digit := Numeral.isDigit_of_mem_digits (by decide) (by decide) member
    refine bne_iff_ne.mpr ?_
    rintro rfl
    cases digit
  have value := Numeral.value_digits (by decide : 1 < 10) (by decide) n
  simp only [readWhole, kept, readDecimalNumeral, Nat.not_lt.mpr short, ↓reduceIte, value]

theorem resolve_decimal {z : Int} (short : Numeral.isShort z = true) :
    resolve (Numeral.decimal z) = .ok (.int z) := by
  have few := Numeral.isShort_iff.mp short
  have notMoment := not_isMoment_decimal z
  obtain ⟨c, cs, written⟩ := List.exists_cons_of_ne_nil (Numeral.decimal_ne_nil z)
  have other {x : Char} : Numeral.isDigit 10 x = false ∧ x ≠ '-' → c ≠ x :=
    Numeral.ne_of_mem_decimal (written ▸ List.mem_cons_self)
  have noSpelling (word : String) {first : Char} {letters : List Char}
      (spelt : word.toList = first :: letters)
      (small : Numeral.isDigit 10 first = false ∧ first ≠ '-')
      (capital : Numeral.isDigit 10 first.toUpper = false ∧ first.toUpper ≠ '-') :
      isSpelling word (Numeral.decimal z) = false := by
    rw [written]
    exact not_isSpelling word spelt (other small) (other capital)
  have notNull : isNull (Numeral.decimal z) = false := by
    simp [isNull, noSpelling "null" rfl (by decide) (by decide)]
    simp [written, other (x := '~') (by decide)]
  have notReserved : isReserved (Numeral.decimal z) = false := by
    simp [isReserved, written, other (x := '=') (by decide), other (x := '<') (by decide)]
  have notBool : bool? (Numeral.decimal z) = none := by
    simp [bool?, noSpelling "yes" rfl (by decide) (by decide),
      noSpelling "true" rfl (by decide) (by decide), noSpelling "on" rfl (by decide) (by decide),
      noSpelling "no" rfl (by decide) (by decide), noSpelling "false" rfl (by decide) (by decide),
      noSpelling "off" rfl (by decide) (by decide)]
  rw [resolve]
  simp only [notNull, notReserved, notMoment, notBool, Bool.false_eq_true, ↓reduceIte]
  cases z with
  | ofNat n =>
      have unsigned : splitSign (Numeral.digits 10 n) = (false, Numeral.digits 10 n) := by
        rw [splitSign.eq_def]
        split
        next same =>
          have digit : Numeral.isDigit 10 '+' = true :=
            Numeral.isDigit_of_mem_digits (by decide) (by decide) (same ▸ List.mem_cons_self)
          cases digit
        next same => exact absurd (same ▸ List.mem_cons_self) (Numeral.minus_not_mem_digits n)
        next => rfl
      have few : (Numeral.digits 10 n).length ≤ Numeral.digitLimit := few
      simp only [Numeral.decimal, unsigned, wholeNotation?_digits, readWhole_digits few]
      rfl
  | negSucc n =>
      have few : (Numeral.digits 10 (n + 1)).length ≤ Numeral.digitLimit := few
      simp only [Numeral.decimal, splitSign, wholeNotation?_digits, readWhole_digits few]
      rfl

/-! ## Tokens -/

/-- A scalar in front of some rest is read as a node, and its first character tells it from
collections, block scalars, marks and comments. -/
structure ReadsScalar (least : Nat) (ws : List Char) (n : Node) (rest : List Char) : Prop where
  token : IsToken ws
  noOther : ∀ mark ∈ ['[', '\x7b', '|', '>'], ws.head? ≠ some mark
  noIndicator : ∀ mark ∈ ['-', '?'], ∀ line column, isIndicator mark ⟨ws, line, column⟩ = false
  reads : ∀ line column, least ≤ column + 1 → ∃ line' column',
    readScalar false least ⟨ws, line, column⟩ =
      .ok ⟨n, ⟨ws, line, column⟩, ⟨rest, line', column'⟩⟩

theorem readsScalar_quoted {double : Bool} {quote : Char}
    (own : quote = if double then '"' else '\'') (reads : ReadsQuoted double ws cs rest) :
    ReadsScalar least (quote :: ws) (.scalar false cs) rest where
  token := ⟨quote, ws, rfl, by subst own; cases double <;> decide⟩
  noOther := by subst own; cases double <;> simp
  noIndicator := by subst own; cases double <;> simp [isIndicator]
  reads := by
    intro line column _
    obtain ⟨line', column', read⟩ :=
      reads ((quote :: ws).length + 1) [] line (column + 1) (by simp)
    refine ⟨line', column', ?_⟩
    subst own
    cases double <;> simp_all [readScalar, readQuoted, Cursor.forward, bind, Except.bind, pure,
      Except.pure]

/-- A word: printable, and without a colon that could make it a key. -/
structure IsWord (cs : List Char) : Prop where
  inhabited : cs ≠ []
  shown : ∀ c ∈ cs, IsInk c ∧ c ≠ ':'

instance : Decidable (IsWord cs) :=
  decidable_of_iff (cs ≠ [] ∧ cs.all (fun c => decide (IsInk c ∧ c ≠ ':')) = true) <| by
    rw [List.all_eq_true]
    simp only [decide_eq_true_eq]
    exact ⟨fun ⟨inhabited, shown⟩ => ⟨inhabited, shown⟩, fun word => ⟨word.inhabited, word.shown⟩⟩

theorem wordLength_append (word : ∀ c ∈ cs, IsInk c ∧ c ≠ ':') (ends : wordLength false rest = 0) :
    wordLength false (cs ++ rest) = cs.length := by
  induction cs with
  | nil => exact ends
  | cons c cs ih =>
      obtain ⟨⟨ink, notColon⟩, others⟩ := List.forall_mem_cons.mp word
      rw [List.cons_append, wordLength,
        endsWord_of_isInk ink fun isColon => absurd isColon notColon, ih others]
      rfl

/-- A word is read up to its end. -/
theorem readPlain_word (word : IsWord cs) (ends : Ends least rest) (line column : Nat) :
    readPlain false least ⟨cs ++ rest, line, column⟩ = ⟨cs, ⟨rest, line, column + cs.length⟩⟩ :=
  plainFrom_word word.inhabited (wordLength_append word.shown ends.noWord) ends _ _ _ _ _

theorem leadingIndicators_eq :
    leadingIndicators = ['#', ',', '[', ']', '\x7b', '\x7d', '&', '*', '!', '|', '>', '\'', '"',
      '%', '@', '\x60'] :=
  String.toList_ofList

/-- The reader knows one indicator more than the writer. -/
theorem leads_or_tab : ∀ x ∈ ",[]\x7b\x7d#&*!|>'\"%@\x60\t".toList,
    x ∈ leadingIndicators ∨ x = '\t' := by
  have spelt : ",[]\x7b\x7d#&*!|>'\"%@\x60\t".toList = [',', '[', ']', '\x7b', '\x7d', '#', '&',
      '*', '!', '|', '>', '\'', '"', '%', '@', '\x60', '\t'] := String.toList_ofList
  rw [spelt, leadingIndicators_eq]
  simp

section

variable (ink : IsInk a) (leads : a ∉ leadingIndicators)
  (marks : a = '-' ∨ a = '?' ∨ a = ':' → isSpaceOrEnd ws.head? = false)
include ink leads marks

theorem startsPlain_of_not_mem : startsPlain false a ws.head? = true := by
  rw [startsPlain]
  split
  next dash => simp [marks (.inl dash)]
  next =>
    split
    next mark => simp_all
    next =>
      simp only [Bool.not_eq_true', List.contains_eq_mem, decide_eq_false_iff_not]
      intro member
      obtain indicator | tab := leads_or_tab a member
      · exact leads indicator
      · exact ink.isShown.2.1 tab

/-- A plain scalar begins with something else than an indicator. -/
theorem readScalar_plain {line column : Nat} {after : Cursor}
    (read : readPlain false least ⟨a :: ws, line, column⟩ = ⟨cs, after⟩) :
    readScalar false least ⟨a :: ws, line, column⟩ =
      .ok ⟨.scalar true cs, ⟨a :: ws, line, column⟩, after⟩ := by
  have starts := startsPlain_of_not_mem ink leads marks
  have other {x : Char} (indicator : x ∈ leadingIndicators) : a ≠ x :=
    fun same => leads (same ▸ indicator)
  rw [leadingIndicators_eq] at other
  simp [readScalar, other (x := '\'') (by decide), other (x := '"') (by decide), starts, read]

theorem readsScalar_plain
    (reads : ∀ line column, least ≤ column + 1 → ∃ line' column',
      readPlain false least ⟨a :: ws, line, column⟩ = ⟨cs, ⟨rest, line', column'⟩⟩) :
    ReadsScalar least (a :: ws) (.scalar true cs) rest := by
  have other {x : Char} (indicator : x ∈ leadingIndicators) : a ≠ x :=
    fun same => leads (same ▸ indicator)
  rw [leadingIndicators_eq] at other
  refine ⟨⟨a, ws, rfl, ink.isShown, other (by decide)⟩, ?_, fun mark member line column => ?_,
    fun line column right => ?_⟩
  · simp [other (x := '[') (by decide), other (x := '\x7b') (by decide),
      other (x := '|') (by decide), other (x := '>') (by decide)]
  · by_cases same : a = mark
    · subst same
      have behind : isSpaceOrEnd ws.head? = false := marks (by simp at member; tauto)
      simp [isIndicator, behind]
    · simp [isIndicator, same]
  · obtain ⟨line', column', read⟩ := reads line column right
    exact ⟨line', column', readScalar_plain ink leads marks read⟩

end

/-! ## Written scalars -/

theorem readsScalar_word (word : IsWord (a :: cs)) (leads : a ∉ leadingIndicators)
    (marks : a = '-' ∨ a = '?' → cs ≠ []) (ends : Ends least rest) :
    ReadsScalar least (a :: (cs ++ rest)) (.scalar true (a :: cs)) rest := by
  obtain ⟨⟨ink, notColon⟩, others⟩ := List.forall_mem_cons.mp word.shown
  refine readsScalar_plain ink leads (fun mark => ?_)
    fun line column _ => ⟨_, _, readPlain_word word ends line column⟩
  have inhabited : cs ≠ [] := marks (by tauto)
  obtain ⟨c, cs, rfl⟩ := List.exists_cons_of_ne_nil inhabited
  exact (others c List.mem_cons_self).1.not_isSpaceOrEnd

theorem readsScalar_bool (ends : Ends least rest) (b : Bool) :
    ReadsScalar least ((if b then "true".toList else "false".toList) ++ rest) (nodeOf (.bool b))
      rest := by
  rw [nodeOf_bool]
  cases b with
  | false =>
      have spelt : (if false then "true".toList else "false".toList) =
          ['f', 'a', 'l', 's', 'e'] := rfl
      rw [spelt]
      exact readsScalar_word (by decide) (by rw [leadingIndicators_eq]; decide) (by decide) ends
  | true =>
      have spelt : (if true then "true".toList else "false".toList) =
          ['t', 'r', 'u', 'e'] := rfl
      rw [spelt]
      exact readsScalar_word (by decide) (by rw [leadingIndicators_eq]; decide) (by decide) ends

theorem isInk_of_isDigit (digit : Numeral.isDigit 10 c = true) :
    IsInk c ∧ c ≠ ':' ∧ c ≠ '-' ∧ c ≠ '?' ∧ c ∉ leadingIndicators := by
  rw [leadingIndicators_eq]
  revert digit
  apply Numeral.forall_isDigit
  decide

theorem readsScalar_int (z : Int) (ends : Ends least rest) :
    ReadsScalar least (Numeral.decimal z ++ rest) (nodeOf (.int z)) rest := by
  rw [nodeOf_int]
  have word : IsWord (Numeral.decimal z) := by
    refine ⟨Numeral.decimal_ne_nil z, fun c member => ?_⟩
    obtain digit | rfl := Numeral.isDigit_or_minus_of_mem_decimal member
    · have shown := isInk_of_isDigit digit
      exact ⟨shown.1, shown.2.1⟩
    · decide
  cases z with
  | ofNat n =>
      rw [Numeral.decimal] at word ⊢
      obtain ⟨c, cs, written⟩ :=
        List.exists_cons_of_ne_nil (Numeral.digits_ne_nil (by decide : 1 < 10) n)
      have digit : Numeral.isDigit 10 c = true :=
        Numeral.isDigit_of_mem_digits (by decide) (by decide) (written ▸ List.mem_cons_self)
      obtain ⟨_, _, notMinus, notMark, leads⟩ := isInk_of_isDigit digit
      rw [written] at word ⊢
      have marks : ¬ (c = '-' ∨ c = '?') := not_or.mpr ⟨notMinus, notMark⟩
      exact readsScalar_word word leads (fun mark => absurd mark marks) ends
  | negSucc n =>
      rw [Numeral.decimal] at word ⊢
      exact readsScalar_word word (by rw [leadingIndicators_eq]; decide)
        (fun _ => Numeral.digits_ne_nil (by decide) _) ends

/-- What a text needs in order to stand plain. -/
structure IsPlain (cs : List Char) : Prop where
  foldable : Foldable cs
  word : isPlainWord cs = true
  noIndicator : hasIndicator cs = false
  oneLine : '\n' ∉ cs
  inhabited : cs ≠ []
  noSpaceFirst : cs.head? ≠ some ' '
  noSpaceLast : cs.getLast? ≠ some ' '

theorem isPlain_of_styleOf (style : styleOf cs = .plain) : IsPlain cs := by
  have foldable : Foldable cs := foldable_of_styleOf (by simp [style])
  rw [styleOf] at style
  split at style
  next => cases style
  next =>
    split at style
    next => cases style
    next plain =>
      simp only [Bool.not_eq_true, Bool.or_eq_false_iff, Bool.not_eq_false',
        List.isEmpty_eq_false_iff, List.contains_eq_mem, decide_eq_false_iff_not] at plain
      obtain ⟨⟨⟨⟨⟨inhabited, word⟩, noIndicator⟩, oneLine⟩, noSpaceFirst⟩, noSpaceLast⟩ := plain
      exact ⟨foldable, word, noIndicator, oneLine, inhabited, noSpaceFirst, noSpaceLast⟩

/-! ## What the node of a scalar stands for -/

theorem means_plain (resolves : resolve cs = .ok v) : Means (.scalar true cs) v := by
  intro level
  rw [make, makeScalar, if_pos rfl, resolves]
  rfl

theorem means_bool (b : Bool) : Means (nodeOf (.bool b)) (.bool b) := by
  rw [nodeOf_bool]
  exact means_plain (resolve_bool b)

theorem means_int {z : Int} (short : Numeral.isShort z = true) :
    Means (nodeOf (.int z)) (.int z) := by
  rw [nodeOf_int]
  exact means_plain (resolve_decimal short)

theorem means_text (cs : List Char) :
    Means (nodeOf (.text (Text.ofChars cs))) (.text (Text.ofChars cs)) := by
  rw [nodeOf_text]
  by_cases style : styleOf cs = .plain
  · simpa [style] using means_plain (resolve_of_isPlainWord (isPlain_of_styleOf style).word)
  · intro level
    simp [make, makeScalar, style]

/-- No text is written as a key that has another meaning. -/
theorem key_nodeOf_text (cs : List Char) :
    (nodeOf (.text (Text.ofChars cs))).isMerge = false ∧
      (nodeOf (.text (Text.ofChars cs))).asKey = nodeOf (.text (Text.ofChars cs)) := by
  rw [nodeOf_text]
  by_cases style : styleOf cs = .plain
  · have word := (isPlain_of_styleOf style).word
    have notReserved : cs ≠ ['='] ∧ cs ≠ ['<', '<'] := by
      constructor <;> rintro rfl <;> exact absurd word (by decide)
    simp [style, Node.isMerge, Node.asKey, notReserved]
  · simp [style, Node.isMerge, Node.asKey]

/-! ## Written texts -/

/-- A text that goes on with something shown is spelt so. -/
theorem Spelt.not_isSpaceOrEnd (spelt : Spelt false indent cs ws) (next : isGap cs.head? = false) :
    isSpaceOrEnd (ws ++ rest).head? = false := by
  cases spelt with
  | nil => cases next
  | char ink => exact ink.not_isSpaceOrEnd
  | quote quoted => cases quoted
  | spaces => cases next
  | folded => cases next
  | breaks => cases next

theorem IsPlain.readsScalar (plain : IsPlain cs) (spelt : Spelt false indent cs ws)
    (ends : Ends least rest) (inside : least ≤ indent) (indented : 0 < indent) :
    ReadsScalar least (ws ++ rest) (.scalar true cs) rest := by
  cases spelt with
  | nil => exact absurd rfl plain.inhabited
  | quote quoted => cases quoted
  | spaces => exact absurd rfl plain.noSpaceFirst
  | folded => exact absurd rfl plain.noSpaceFirst
  | breaks => exact absurd List.mem_cons_self plain.oneLine
  | @char c cs ws ink own behind =>
      have noIndicator := plain.noIndicator
      simp only [hasIndicator, Bool.or_eq_false_iff, List.contains_eq_mem, decide_eq_false_iff_not,
        Bool.and_eq_false_imp, Bool.or_eq_true, decide_eq_true_eq, or_assoc] at noIndicator
      obtain ⟨⟨⟨⟨leads, marks⟩, _⟩, _⟩, inner⟩ := noIndicator
      -- Nothing stands in front of the text, so any letter may be taken for what does.
      have continues : Continues 'a' (c :: cs) := by
        refine ⟨?_, plain.oneLine, plain.noSpaceLast⟩
        have letter : isGap (some 'a') = false := rfl
        simp only [hasInnerIndicator, letter, inner, Bool.and_false, Bool.or_false,
          Bool.and_eq_false_imp, decide_eq_true_eq]
        exact fun colon => marks (.inr (.inr colon))
      have reads := (behind.readsPlain ends inside indented).1 'a' c ink continues
      refine readsScalar_plain ink leads (fun mark => ?_) fun line column right => ?_
      · exact behind.not_isSpaceOrEnd (marks mark)
      · exact reads.reads _ [] [] line column (Nat.lt_succ_self _) right

/-- A text is read back in the style that it was written in. -/
theorem readsScalar_text (cs : List Char) (below : Below least k more) (inside : least ≤ indent)
    (indented : 0 < indent) (narrow : indent < limit) (column : Nat) :
    ReadsScalar least (writeText limit indent column (Text.ofChars cs) ++ (newLine k ++ more))
      (nodeOf (.text (Text.ofChars cs))) (newLine k ++ more) := by
  rw [writeText_ofChars, nodeOf_text]
  cases style : styleOf cs with
  | plain =>
      have plain := isPlain_of_styleOf style
      exact plain.readsScalar (spelt_fold plain.foldable column false) (ends_newLine below) inside
        indented
  | single =>
      have foldable : Foldable cs := foldable_of_styleOf (by simp [style])
      have spelt : Spelt true indent cs (fold true limit indent (column + 1) true cs) :=
        spelt_fold foldable (column + 1) true
      have closed : (newLine k ++ more).head? ≠ some '\'' := by simp [newLine]
      have scalar : ReadsScalar least ('\'' :: _) _ _ :=
        readsScalar_quoted rfl (spelt.readsQuoted indented closed)
      simpa using scalar
  | double =>
      obtain ⟨anywhere, _⟩ := readsQuoted_escapeFold indented narrow cs (newLine k ++ more)
      have scalar : ReadsScalar least ('"' :: _) _ _ :=
        readsScalar_quoted rfl (anywhere (column + 1) true true).1
      simpa using scalar

end Bytewise.Yaml

import Bytewise.Proofs.Value
import Bytewise.Proofs.Yaml.Page
import Bytewise.Proofs.Yaml.Scalars
import Mathlib

/-!
# Blocks read back

What stands behind a written value is always the line of whatever comes next: the next item, the
next key, a key of an outer mapping, or the end of the text. So a value is described by how it is
read in front of any such line (`Yaml.ReadsMember`, `Yaml.ReadsItem`), and the reader ends up at the
first token of that line. Items and members are then read one after the other, by induction on the
list. What they are read as is the node of the value, and the node stands for the value.

Columns decide where a block ends. A key never stands further to the right than the block that it
ends, and it is no dash, which is why a list may stand at the column of its own key.
-/

namespace Bytewise.Yaml

variable {least indent column k fuel line : Nat} {ws cs rest more ms : List Char} {a : Char}
  {v : Value} {node : Node} {items : List Value} {entries : List (Value × Value)}

/-! ## The next line -/

theorem skipGap_spaces (line column count : Nat) (stops : more = [] ∨ IsToken more) :
    (Cursor.mk (List.replicate count ' ' ++ more) line column).skipGap =
      ⟨more, line, column + count⟩ := by
  induction count generalizing column with
  | zero =>
      obtain rfl | ⟨a, more, rfl, ⟨space, _, break'⟩, noComment⟩ := stops
      · rfl
      · simp [Cursor.skipGap, Cursor.skipGapFrom, space, break', noComment]
  | succ count ih =>
      have passed := ih (column + 1)
      have notBreak : isBreak ' ' = false := by decide
      simp only [Cursor.skipGap] at passed ⊢
      rw [List.replicate_succ, List.cons_append, Cursor.skipGapFrom]
      simp [notBreak, passed, Nat.add_assoc, Nat.add_comm 1]

theorem skipGap_newLine (line column k : Nat) (stops : more = [] ∨ IsToken more) :
    (Cursor.mk (newLine k ++ more) line column).skipGap = ⟨more, line + 1, k⟩ := by
  have passed := skipGap_spaces (line + 1) 0 k stops
  rw [Nat.zero_add] at passed
  exact passed

/-- A space in front of a token, and what is behind it. -/
theorem IsToken.skipGap_space (token : IsToken more) (line column : Nat) :
    (Cursor.mk (' ' :: more) line column).skipGap = ⟨more, line, column + 1⟩ :=
  skipGap_spaces line column 1 (.inr token)

/-- Document markers stand at the start of a line only. -/
theorem IsToken.not_atEnd (token : IsToken more) (line column : Nat) :
    (Cursor.mk more line (column + 1)).atEnd = false := by
  obtain ⟨a, ms, rfl, -⟩ := token
  simp [Cursor.atEnd, Cursor.isMarker]

theorem behind_newLine (node : Node) (line column k : Nat) (stops : more = [] ∨ IsToken more) :
    Parsed.behind node ⟨newLine k ++ more, line, column⟩ = ⟨node, ⟨more, line + 1, k⟩, true⟩ := by
  simp [Parsed.behind, skipGap_newLine line column k stops]

theorem colon?_newLine (line column k : Nat) (more : List Char) :
    colon? false ⟨newLine k ++ more, line, column⟩ = none := rfl

/-! ## Values on one line -/

/-- A node is read from wherever it stands, up to the first token of the next line. -/
structure ReadsNode (least : Nat) (ws : List Char) (node : Node) (k : Nat) (more : List Char) :
    Prop where
  token : IsToken ws
  reads : ∀ fuel keys line column, least ≤ column + 1 → ∃ line',
    readNode (fuel + 1) least keys ⟨ws, line, column⟩ = .ok ⟨node, ⟨more, line', k⟩, true⟩

theorem Below.stops (below : Below least k more) : more = [] ∨ IsToken more :=
  below.imp_right And.left

theorem ReadsScalar.readToken (scalar : ReadsScalar least ws node rest) (line column : Nat) :
    readToken least ⟨ws, line, column⟩ = readScalar false least ⟨ws, line, column⟩ := by
  have noList := scalar.noOther '[' (by decide)
  have noMap := scalar.noOther '\x7b' (by decide)
  rw [Yaml.readToken, if_neg (by simp [noList, noMap])]

theorem ReadsScalar.readsNode (scalar : ReadsScalar least ws node (newLine k ++ more))
    (below : Below least k more) : ReadsNode least ws node k more where
  token := scalar.token
  reads := by
    intro fuel keys line column right
    obtain ⟨line', column', read⟩ := scalar.reads line column right
    refine ⟨line' + 1, ?_⟩
    have noDash := scalar.noIndicator '-' (by decide) line column
    have noMark := scalar.noIndicator '?' (by decide) line column
    have noBlock : ¬ (ws.head? = some '|' ∨ ws.head? = some '>') :=
      not_or.mpr ⟨scalar.noOther '|' (by decide), scalar.noOther '>' (by decide)⟩
    simp only [readNode, noDash, noMark, noBlock, scalar.readToken, read, bind, Except.bind,
      colon?_newLine, behind_newLine node _ _ _ below.stops, Bool.false_eq_true, ↓reduceIte,
      Bool.or_eq_true, decide_eq_true_eq]
    rfl

theorem readsNode_emptyList (below : Below least k more) :
    ReadsNode least ('[' :: ']' :: (newLine k ++ more)) (nodeOf (.list [])) k more where
  token := ⟨'[', _, rfl, by decide⟩
  reads := by
    intro fuel keys line column right
    refine ⟨line + 1, ?_⟩
    have bracket : IsToken (']' :: (newLine k ++ more)) := ⟨']', _, rfl, by decide⟩
    have passed (line column : Nat) :
        (Cursor.mk (']' :: (newLine k ++ more)) line column).skipGap = ⟨_, line, column⟩ :=
      skipGap_spaces line column 0 (.inr bracket)
    simp [readNode, isIndicator, readToken, readFlow, readFlowItems, Cursor.forward, passed,
      nodeOf, nodesOf, colon?_newLine, behind_newLine _ _ _ _ below.stops, bind, Except.bind, pure,
      Except.pure]

/-! ## Items -/

/-- A text that starts with a small letter, as keys do. -/
def StartsKey (more : List Char) : Prop := ∃ a ms, more = a :: ms ∧ 'a' ≤ a ∧ a ≤ 'z'

instance : Decidable (StartsKey more) :=
  decidable_of_iff (more.head?.any (fun a => 'a' ≤ a && a ≤ 'z') = true) <| by
    cases more <;> simp [StartsKey]

/-- What may stand on the line below a block at a column: nothing, or a key that is not further to
the right. -/
def Follows (column k : Nat) (more : List Char) : Prop := more = [] ∨ StartsKey more ∧ k ≤ column

theorem StartsKey.ne (starts : StartsKey more) (other : a < 'a' ∨ 'z' < a) :
    more.head? ≠ some a := by
  obtain ⟨b, ms, rfl, low, high⟩ := starts
  rintro same
  cases same
  obtain before | behind := other
  · exact absurd before (Char.not_lt.mpr low)
  · exact absurd behind (Char.not_lt.mpr high)

theorem StartsKey.isInk (starts : StartsKey (a :: ms)) : IsInk a := by
  obtain ⟨b, more, same, low, high⟩ := starts
  obtain ⟨rfl, -⟩ := List.cons.inj same
  refine ⟨⟨le_trans (by decide) low, le_trans high (by decide)⟩, ?_⟩
  rintro rfl
  exact absurd low (by decide)

theorem StartsKey.isToken (starts : StartsKey more) : IsToken more := by
  obtain ⟨a, ms, rfl, -⟩ := id starts
  have noComment := starts.ne (a := '#') (.inl (by decide))
  exact ⟨a, ms, rfl, starts.isInk.isShown, by simpa using noComment⟩

theorem StartsKey.not_isIndicator (starts : StartsKey more) (other : a < 'a' ∨ 'z' < a) :
    isIndicator a ⟨more, line, column⟩ = false := by
  have differs := starts.ne other
  obtain ⟨b, ms, rfl, -⟩ := starts
  simp_all [isIndicator]

theorem StartsKey.not_isDash (starts : StartsKey more) :
    isIndicator '-' ⟨more, line, column⟩ = false :=
  starts.not_isIndicator (.inl (by decide))

theorem StartsKey.not_atEnd (starts : StartsKey more) :
    (Cursor.mk more line column).atEnd = false := by
  have noDash := starts.ne (a := '-') (.inl (by decide))
  have noDot := starts.ne (a := '.') (.inl (by decide))
  obtain ⟨a, ms, rfl, -⟩ := starts
  simp only [List.head?_cons, ne_eq, Option.some.injEq] at noDash noDot
  simp [Cursor.atEnd, not_isMarker "---" rfl (Ne.symm noDash),
    not_isMarker "..." rfl (Ne.symm noDot)]

theorem Follows.below (follows : Follows column k more) : Below (column + 1) k more :=
  follows.imp_right fun ⟨starts, left⟩ => ⟨starts.isToken, Nat.lt_succ_of_le left⟩

/-- An item at a column is read back in front of any line that may stand below it. -/
structure ReadsItem (column : Nat) (v : Value) : Prop where
  onPage : OnPage (writeItem (column + 2) v)
  means : Means (nodeOf v) v
  reads : ∀ k more, Below (column + 1) k more →
    ReadsNode (column + 1) (writeItem (column + 2) v ++ (newLine k ++ more)) (nodeOf v) k more

def laterItems (column : Nat) : List Value → List Char
  | [] => []
  | v :: rest => newLine column ++ writeItems column (v :: rest)

theorem writeItems_cons (column : Nat) (v : Value) (rest : List Value) :
    writeItems column (v :: rest) =
      '-' :: ' ' :: (writeItem (column + 2) v ++ laterItems column rest) := by
  cases rest with
  | nil => simp [writeItems, laterItems]
  | cons w rest => simp [writeItems, laterItems]

theorem length_le_writeItems (column : Nat) (items : List Value) :
    items.length ≤ (writeItems column items).length := by
  induction items with
  | nil => simp
  | cons v rest ih =>
      rw [writeItems_cons]
      cases rest with
      | nil => simp
      | cons w rest =>
          simp only [laterItems, List.length_cons, List.length_append] at ih ⊢
          omega

theorem onPage_writeItems (inside : ∀ v ∈ items, ReadsItem column v) :
    OnPage (writeItems column items) := by
  induction items with
  | nil => simp [writeItems]
  | cons v rest ih =>
      obtain ⟨first, others⟩ := List.forall_mem_cons.mp inside
      rw [writeItems_cons]
      cases rest with
      | nil => simp [laterItems, first.onPage]
      | cons w rest => simp [laterItems, first.onPage, ih others]

/-- An item starts with a dash. -/
theorem exists_dash (column : Nat) (inhabited : items ≠ []) (rest : List Char) :
    ∃ ms, writeItems column items ++ rest = '-' :: ' ' :: ms := by
  obtain ⟨v, later, rfl⟩ := List.exists_cons_of_ne_nil inhabited
  rw [writeItems_cons]
  exact ⟨_, rfl⟩

theorem isToken_dash (ms : List Char) : IsToken ('-' :: ' ' :: ms) := ⟨'-', _, rfl, by decide⟩

theorem not_atEnd_dash (ms : List Char) (line column : Nat) :
    (Cursor.mk ('-' :: ' ' :: ms) line column).atEnd = false := by
  simp [Cursor.atEnd, Cursor.isMarker, List.isPrefixOf]

theorem isDash_dash (ms : List Char) (line column : Nat) :
    isIndicator '-' ⟨'-' :: ' ' :: ms, line, column⟩ = true := rfl

/-- One item behind its dash. -/
theorem readItem_item (item : ReadsItem column v) (below : Below (column + 1) k more)
    (fuel line : Nat) :
    ∃ line', readItem (fuel + 2) column
      ⟨' ' :: (writeItem (column + 2) v ++ (newLine k ++ more)), line, column + 1⟩ =
        .ok ⟨nodeOf v, ⟨more, line', k⟩, true⟩ := by
  have reads := item.reads k more below
  obtain ⟨line', read⟩ := reads.reads fuel true line (column + 2) (by omega)
  refine ⟨line', ?_⟩
  have goesOn := reads.token.not_atEnd line (column + 1)
  have passed := reads.token.skipGap_space line (column + 1)
  rw [readItem]
  simp [passed, goesOn, read]

/-- Behind an item there is another dash, or the list ends. -/
theorem readItems_item {c : Cursor} (done : List Node)
    (read : readItem fuel column ⟨rest, line, column + 1⟩ = .ok ⟨node, c, true⟩) :
    readItems (fuel + 1) column true done ⟨'-' :: rest, line, column⟩ =
      if c.atEnd || c.column < column then .ok ⟨.list (node :: done).reverse, c, true⟩
      else if column < c.column then .error .malformed
      else if isIndicator '-' c then readItems fuel column true (node :: done) c
      else .ok ⟨.list (node :: done).reverse, c, true⟩ := by
  simp [readItems, Cursor.forward, read, bind, Except.bind, pure, Except.pure]

/-- The items of a list that stands at the column of its key. -/
theorem readItems_items (inside : ∀ v ∈ items, ReadsItem column v) (inhabited : items ≠ [])
    (follows : Follows column k more) (enough : items.length + 2 ≤ fuel) (done : List Node)
    (line : Nat) :
    ∃ line', readItems fuel column true done
      ⟨writeItems column items ++ (newLine k ++ more), line, column⟩ =
        .ok ⟨.list (done.reverse ++ nodesOf items), ⟨more, line', k⟩, true⟩ := by
  induction items generalizing fuel done line with
  | nil => exact absurd rfl inhabited
  | cons v rest ih =>
      obtain ⟨first, others⟩ := List.forall_mem_cons.mp inside
      obtain ⟨fuel, rfl⟩ : ∃ fuel', fuel = fuel' + 3 := ⟨fuel - 3, by simp at enough; omega⟩
      rw [writeItems_cons]
      cases rest with
      | nil =>
          obtain ⟨line', read⟩ := readItem_item first follows.below fuel line
          refine ⟨line', ?_⟩
          simp only [laterItems, List.append_nil, List.cons_append]
          rw [readItems_item done read]
          obtain rfl | ⟨starts, left⟩ := follows
          · simp [Cursor.atEnd, nodesOf]
          · simp [starts.not_isDash, Nat.not_lt.mpr left, nodesOf]
      | cons w rest =>
          obtain ⟨ms, dash⟩ := exists_dash column (List.cons_ne_nil w rest) (newLine k ++ more)
          have below : Below (column + 1) column
              (writeItems column (w :: rest) ++ (newLine k ++ more)) :=
            .inr ⟨dash ▸ isToken_dash ms, Nat.lt_succ_self column⟩
          obtain ⟨line', read⟩ := readItem_item first below fuel line
          have enough : (w :: rest).length + 2 ≤ fuel + 2 := by simpa using enough
          obtain ⟨line'', later⟩ :=
            ih others (List.cons_ne_nil w rest) enough (nodeOf v :: done) line'
          refine ⟨line'', ?_⟩
          simp only [laterItems, List.append_assoc, List.cons_append]
          rw [readItems_item done read, later]
          simp [dash, not_atEnd_dash, isDash_dash, nodesOf]

/-! ## Keys -/

/-- A key that stands plain in front of its value. -/
structure IsKey (cs : List Char) : Prop where
  word : IsWord cs
  starts : StartsKey cs
  plain : styleOf cs = .plain
  short : cs.length < keyLimit

instance : Decidable (IsKey cs) :=
  decidable_of_iff (IsWord cs ∧ StartsKey cs ∧ styleOf cs = .plain ∧ cs.length < keyLimit)
    ⟨fun ⟨word, starts, plain, short⟩ => ⟨word, starts, plain, short⟩,
      fun key => ⟨key.word, key.starts, key.plain, key.short⟩⟩

theorem Spelt.eq_of_isWord (spelt : Spelt false indent cs ws) (word : ∀ c ∈ cs, IsInk c ∧ c ≠ ':') :
    ws = cs := by
  induction spelt with
  | nil => rfl
  | char _ _ _ ih => rw [ih (List.forall_mem_cons.mp word).2]
  | quote quoted => cases quoted
  | spaces => exact absurd rfl (word ' ' List.mem_cons_self).1.notSpace
  | folded => exact absurd rfl (word ' ' List.mem_cons_self).1.notSpace
  | breaks => exact absurd rfl (word '\n' List.mem_cons_self).1.notFeed

theorem IsKey.isSimpleKey (key : IsKey cs) : isSimpleKey (.text (Text.ofChars cs)) = true := by
  have oneLine : ((Text.ofChars cs).any fun s => s.char?.any isBreak) = false := by
    rw [List.any_eq_false]
    intro s member
    obtain ⟨c, inside, rfl⟩ := List.mem_map.mp member
    simp [Symbol.char?, (key.word.shown c inside).1.isShown.2.2]
  have short := key.short
  have inhabited := key.word.inhabited
  simp only [Yaml.isSimpleKey, oneLine]
  simp [Text.ofChars, inhabited, short]

theorem IsKey.writeKey (key : IsKey cs) (column : Nat) :
    writeKey column (.text (Text.ofChars cs)) = cs ++ [':'] := by
  have plain := isPlain_of_styleOf key.plain
  have spelt : Spelt false column cs
      (fold false (column + escapeLimit * keyLimit) column column false cs) :=
    spelt_fold plain.foldable column false
  rw [Yaml.writeKey, if_pos key.isSimpleKey, writeScalar, writeText_ofChars, key.plain]
  simp only [spelt.eq_of_isWord key.word.shown]

/-- A key is read on its line, with the colon behind it. -/
theorem IsKey.readToken (key : IsKey cs) (least line column : Nat)
    (blank : isSpaceOrEnd rest.head? = true) :
    readToken least ⟨cs ++ (':' :: rest), line, column⟩ =
      .ok ⟨nodeOf (.text (Text.ofChars cs)), ⟨cs ++ (':' :: rest), line, column⟩,
        ⟨':' :: rest, line, column + cs.length⟩⟩ := by
  have ends : Ends least (':' :: rest) := ends_colon blank
  have read := readPlain_word key.word ends line column
  have noIndicator := (isPlain_of_styleOf key.plain).noIndicator
  have word := key.word.shown
  have noDash := key.starts.ne (a := '-') (.inl (by decide))
  have noMark := key.starts.ne (a := '?') (.inl (by decide))
  have noList := key.starts.ne (a := '[') (.inl (by decide))
  have noMap := key.starts.ne (a := '\x7b') (.inr (by decide))
  rw [nodeOf_text, decide_eq_true key.plain]
  obtain ⟨a, cs, rfl⟩ := List.exists_cons_of_ne_nil key.word.inhabited
  obtain ⟨ink, noColon⟩ := word a List.mem_cons_self
  simp only [hasIndicator, Bool.or_eq_false_iff, List.contains_eq_mem,
    decide_eq_false_iff_not] at noIndicator
  simp only [List.head?_cons, ne_eq, Option.some.injEq] at noDash noMark noList noMap
  rw [Yaml.readToken, if_neg (by simp [noList, noMap])]
  exact readScalar_plain ink noIndicator.1.1.1.1 (by tauto) read

/-- The colon that stands right behind a key is within its reach. -/
theorem IsKey.colonInReach (key : IsKey cs) (ahead rest : List Char) (line column : Nat) :
    colonInReach ⟨ahead, line, column⟩ ⟨rest, line, column + cs.length + 1⟩ = true := by
  have short : cs.length ≤ keyReach := key.short.le.trans (by decide)
  simp only [Yaml.colonInReach, decide_true, Bool.true_and, decide_eq_true_eq]
  omega

theorem colon?_colon (blank : isSpaceOrEnd rest.head? = true) (line column : Nat) :
    colon? false ⟨':' :: rest, line, column⟩ = some ⟨rest, line, column + 1⟩ := by
  simp [colon?, Cursor.skipSpaces, Cursor.forward, blank]

/-! ## Members -/

/-- The value of a key at a column is read back in front of any line that may stand below it, if its
text is not longer than the fuel. -/
structure ReadsMember (column : Nat) (v : Value) : Prop where
  onPage : ∀ width, OnPage (writeMember column width true v)
  means : Means (nodeOf v) v
  blank : ∀ width rest, isSpaceOrEnd (writeMember column width true v ++ rest).head? = true
  reads : ∀ width k more fuel line col, Follows column k more → column ≤ col →
    (writeMember column width true v).length + 3 ≤ fuel → ∃ line',
      readPart fuel column false
        ⟨writeMember column width true v ++ (newLine k ++ more), line, col⟩ =
          .ok ⟨nodeOf v, ⟨more, line', k⟩, true⟩

/-- A value that stands on the line of its key. -/
theorem readsMember_of_inline
    (written : ∀ width, writeMember column width true v =
      ' ' :: writeScalar lineWidth (column + 2) (column + width + 1) v)
    (page : ∀ col, OnPage (writeScalar lineWidth (column + 2) col v)) (means : Means (nodeOf v) v)
    (reads : ∀ col k more, Below (column + 1) k more →
      ReadsNode (column + 1) (writeScalar lineWidth (column + 2) col v ++ (newLine k ++ more))
        (nodeOf v) k more) : ReadsMember column v where
  onPage := fun width => by simp [written, page]
  means := means
  blank := fun width rest => by simp [written, isSpaceOrEnd]
  reads := by
    intro width k more fuel line col follows right enough
    obtain ⟨fuel, rfl⟩ : ∃ fuel', fuel = fuel' + 2 := ⟨fuel - 2, by omega⟩
    have reads := reads (column + width + 1) k more follows.below
    obtain ⟨line', read⟩ := reads.reads fuel false line (col + 1) (by omega)
    refine ⟨line', ?_⟩
    rw [written, List.cons_append]
    have goesOn := reads.token.not_atEnd line col
    have passed := reads.token.skipGap_space line col
    rw [readPart]
    simp [passed, goesOn, read]

/-- A list below its key. -/
theorem readsMember_list (inside : ∀ v ∈ items, ReadsItem column v) (inhabited : items ≠ []) :
    ReadsMember column (.list items) := by
  obtain ⟨v, rest, rfl⟩ := List.exists_cons_of_ne_nil inhabited
  have written (width : Nat) : writeMember column width true (.list (v :: rest)) =
      newLine column ++ writeItems column (v :: rest) := by simp [writeMember]
  refine ⟨fun width => ?_, means_list fun v member => (inside v member).means, fun width rest => ?_,
    fun width k more fuel line col follows right enough => ?_⟩
  · simp [written, onPage_writeItems inside]
  · simp [written, newLine, isSpaceOrEnd, isBreak]
  · obtain ⟨fuel, rfl⟩ : ∃ fuel', fuel = fuel' + 1 := ⟨fuel - 1, by omega⟩
    have size := length_le_writeItems column (v :: rest)
    have enough : (v :: rest).length + 2 ≤ fuel := by
      simp only [written, List.length_append] at enough
      omega
    obtain ⟨line', read⟩ := readItems_items inside inhabited follows enough [] (line + 1)
    refine ⟨line', ?_⟩
    obtain ⟨ms, dash⟩ := exists_dash column inhabited (newLine k ++ more)
    rw [written, List.append_assoc]
    rw [dash] at read ⊢
    have passed := skipGap_newLine line col column (.inr (isToken_dash ms))
    rw [readPart]
    simpa [passed, not_atEnd_dash, isDash_dash, nodeOf] using read

structure ReadsEntry (column : Nat) (e : Value × Value) : Prop where
  key : ∃ cs, IsKey cs ∧ e.1 = .text (Text.ofChars cs)
  value : ReadsMember column e.2

def laterMembers (column : Nat) : List (Value × Value) → List Char
  | [] => []
  | e :: rest => newLine column ++ writeMembers column (e :: rest)

theorem laterMembers_cons (column : Nat) (e : Value × Value) (rest : List (Value × Value)) :
    laterMembers column (e :: rest) = newLine column ++ writeMembers column (e :: rest) := rfl

theorem writeMembers_cons (key : IsKey cs) (column : Nat) (v : Value)
    (rest : List (Value × Value)) :
    writeMembers column ((.text (Text.ofChars cs), v) :: rest) =
      cs ++ ':' :: (writeMember column (keyWidth column (.text (Text.ofChars cs))) true v ++
        laterMembers column rest) := by
  cases rest with
  | nil => simp [writeMembers, laterMembers, key.writeKey, key.isSimpleKey]
  | cons e rest => simp [writeMembers, laterMembers, key.writeKey, key.isSimpleKey]

theorem onPage_writeMembers (inside : ∀ e ∈ entries, ReadsEntry column e) :
    OnPage (writeMembers column entries) := by
  induction entries with
  | nil => simp [writeMembers]
  | cons e rest ih =>
      obtain ⟨⟨⟨cs, key, named⟩, value⟩, others⟩ := List.forall_mem_cons.mp inside
      obtain ⟨_, v⟩ := e
      subst named
      have word : OnPage cs := fun c member => .inr (key.word.shown c member).1.printable
      rw [writeMembers_cons key]
      cases rest with
      | nil => simp [laterMembers, word, value.onPage]
      | cons w rest => simp [laterMembers, word, value.onPage, ih others]

/-- A mapping starts with its first key. -/
theorem startsKey_writeMembers (inside : ∀ e ∈ entries, ReadsEntry column e)
    (inhabited : entries ≠ []) (rest : List Char) :
    StartsKey (writeMembers column entries ++ rest) := by
  obtain ⟨⟨_, v⟩, later, rfl⟩ := List.exists_cons_of_ne_nil inhabited
  obtain ⟨⟨⟨cs, key, rfl⟩, -⟩, -⟩ := List.forall_mem_cons.mp inside
  obtain ⟨a, ms, rfl, letter⟩ := id key.starts
  rw [writeMembers_cons key]
  exact ⟨a, _, rfl, letter⟩

section

variable {c behind : Cursor} {key : Node} {done : List (Node × Node)}

/-- The mapping ends behind a member. -/
theorem readMembers_last (read : readPart fuel column false behind = .ok ⟨node, c, true⟩)
    (ends : c.atEnd = true ∨ c.column < column) :
    readMembers (fuel + 1) column done (.simple key behind) =
      .ok ⟨.ofEntries (done.reverse ++ [(key, node)]), c, true⟩ := by
  have ends : (c.atEnd || decide (c.column < column)) = true := by simpa using ends
  simp [readMembers, read, ends, bind, Except.bind, pure, Except.pure]

theorem IsKey.startsKey_append (key : IsKey cs) (rest : List Char) : StartsKey (cs ++ rest) := by
  obtain ⟨a, ms, rfl, letter⟩ := key.starts
  exact ⟨a, _, rfl, letter⟩

/-- A key is found where a member may start. -/
theorem IsKey.keyAhead (key : IsKey cs) (blank : isSpaceOrEnd rest.head? = true)
    (line column : Nat) :
    keyAhead column ⟨cs ++ ':' :: rest, line, column⟩ =
      .ok (.simple (nodeOf (.text (Text.ofChars cs))) ⟨rest, line, column + cs.length + 1⟩) := by
  have noMark : isIndicator '?' ⟨cs ++ ':' :: rest, line, column⟩ = false :=
    (key.startsKey_append _).not_isIndicator (.inl (by decide))
  have token := key.readToken (column + 1) line column blank
  simp [Yaml.keyAhead, noMark, token, colon?_colon blank, key.colonInReach, bind, Except.bind, pure,
    Except.pure]

/-- Another key at the same column stands behind a member. -/
theorem readMembers_next (next : IsKey cs) (blank : isSpaceOrEnd rest.head? = true)
    (read : readPart fuel column false behind =
      .ok ⟨node, ⟨cs ++ ':' :: rest, line, column⟩, true⟩) :
    readMembers (fuel + 1) column done (.simple key behind) =
      readMembers fuel column ((key, node) :: done)
        (.simple (nodeOf (.text (Text.ofChars cs))) ⟨rest, line, column + cs.length + 1⟩) := by
  have goesOn : (Cursor.mk (cs ++ ':' :: rest) line column).atEnd = false :=
    (next.startsKey_append _).not_atEnd
  have ahead := next.keyAhead blank line column
  simp [readMembers, read, goesOn, ahead, bind, Except.bind, pure, Except.pure]

/-- A key where one may stand begins a mapping. -/
theorem readNode_key (first : IsKey cs) (blank : isSpaceOrEnd rest.head? = true) :
    readNode (fuel + 1) least true ⟨cs ++ ':' :: rest, line, column⟩ =
      readMembers fuel column []
        (.simple (nodeOf (.text (Text.ofChars cs))) ⟨rest, line, column + cs.length + 1⟩) := by
  have starts := first.startsKey_append (':' :: rest)
  have noMark : isIndicator '?' ⟨cs ++ ':' :: rest, line, column⟩ = false :=
    starts.not_isIndicator (.inl (by decide))
  have noLiteral := starts.ne (a := '|') (.inr (by decide))
  have noFolded := starts.ne (a := '>') (.inl (by decide))
  have token := first.readToken least line column blank
  simp only [readNode, starts.not_isDash, noMark, noLiteral, noFolded, token, colon?_colon blank,
    first.colonInReach, bind, Except.bind, Bool.false_eq_true, Bool.and_self, Bool.or_self,
    decide_false, ↓reduceIte]

end

/-- The members of a mapping, from behind the colon of the first key on. -/
theorem readMembers_entries {key : Value} {done : List (Node × Node)} {rest : List (Value × Value)}
    (inside : ∀ e ∈ (key, v) :: rest, ReadsEntry column e)
    (ends : more = [] ∨ StartsKey more ∧ k < column) (line : Nat) {col : Nat} (right : column ≤ col)
    (enough : (writeMember column (keyWidth column key) true v ++
      laterMembers column rest).length + 4 ≤ fuel) :
    ∃ line', readMembers fuel column done (.simple (nodeOf key)
      ⟨writeMember column (keyWidth column key) true v ++
        (laterMembers column rest ++ (newLine k ++ more)), line, col⟩) =
        .ok ⟨.ofEntries (done.reverse ++ memberNodes ((key, v) :: rest)), ⟨more, line', k⟩,
          true⟩ := by
  induction rest generalizing key v done fuel line col with
  | nil =>
      obtain ⟨⟨⟨cs, isKey, named⟩, value⟩, -⟩ := List.forall_mem_cons.mp inside
      obtain rfl : key = .text (Text.ofChars cs) := named
      replace value : ReadsMember column v := value
      obtain ⟨fuel, rfl⟩ : ∃ fuel', fuel = fuel' + 1 := ⟨fuel - 1, by omega⟩
      have follows : Follows column k more := ends.imp_right fun ⟨starts, left⟩ => ⟨starts, left.le⟩
      simp only [laterMembers, List.append_nil, List.nil_append] at enough ⊢
      obtain ⟨line', read⟩ := value.reads _ k more fuel line col follows right
        (Nat.le_of_succ_le_succ enough)
      refine ⟨line', ?_⟩
      rw [readMembers_last read]
      · rfl
      · exact ends.imp (fun nothing => by rw [nothing]; rfl) And.right
  | cons e rest ih =>
      obtain ⟨⟨⟨cs, isKey, named⟩, value⟩, others⟩ := List.forall_mem_cons.mp inside
      obtain rfl : key = .text (Text.ofChars cs) := named
      replace value : ReadsMember column v := value
      obtain ⟨⟨⟨cs', next, named⟩, value'⟩, -⟩ := List.forall_mem_cons.mp others
      obtain ⟨key', v'⟩ := e
      obtain rfl : key' = .text (Text.ofChars cs') := named
      replace value' : ReadsMember column v' := value'
      obtain ⟨fuel, rfl⟩ : ∃ fuel', fuel = fuel' + 1 := ⟨fuel - 1, by omega⟩
      have starts := startsKey_writeMembers others (List.cons_ne_nil _ _) (newLine k ++ more)
      simp only [laterMembers_cons, writeMembers_cons next, List.append_assoc, List.cons_append,
        List.length_append, List.length_cons] at enough starts ⊢
      obtain ⟨line', read⟩ := value.reads (keyWidth column (.text (Text.ofChars cs))) column _
        fuel line col (.inr ⟨starts, le_refl column⟩) right (by omega)
      obtain ⟨line'', later⟩ := @ih fuel v' _
        ((nodeOf (.text (Text.ofChars cs)), nodeOf v) :: done) others line'
        (column + cs'.length + 1) (by omega) (by rw [List.length_append]; omega)
      refine ⟨line'', ?_⟩
      rw [readMembers_next next (value'.blank _ _) read, later]
      simp [memberNodes]

/-- No key of a written mapping has another meaning. -/
theorem ofEntries_memberNodes (inside : ∀ e ∈ entries, ReadsEntry column e) :
    Node.ofEntries (memberNodes entries) = nodeOf (.map entries) := by
  have keys : ∀ e ∈ memberNodes entries, e.1.isMerge = false ∧ e.1.asKey = e.1 := by
    induction entries with
    | nil => simp [memberNodes]
    | cons e rest ih =>
        obtain ⟨⟨⟨cs, -, named⟩, -⟩, others⟩ := List.forall_mem_cons.mp inside
        obtain ⟨_, v⟩ := e
        obtain rfl := named
        exact List.forall_mem_cons.mpr ⟨key_nodeOf_text cs, ih others⟩
  rw [Node.ofEntries_of_forall keys, nodeOf]

theorem means_entries (inside : ∀ e ∈ entries, ReadsEntry column e)
    (distinct : (entries.map Prod.fst).Nodup) : Means (nodeOf (.map entries)) (.map entries) := by
  refine means_map (fun e member => ?_) (fun e member => (inside e member).value.means) distinct
  obtain ⟨cs, -, named⟩ := (inside e member).key
  exact ⟨cs, named, named ▸ means_text cs⟩

/-- A mapping is read from its first key on. -/
theorem readNode_map (inside : ∀ e ∈ entries, ReadsEntry column e) (inhabited : entries ≠ [])
    (ends : more = [] ∨ StartsKey more ∧ k < column) (least line : Nat)
    (enough : (writeMembers column entries).length + 2 ≤ fuel) :
    ∃ line', readNode (fuel + 1) least true
      ⟨writeMembers column entries ++ (newLine k ++ more), line, column⟩ =
        .ok ⟨nodeOf (.map entries), ⟨more, line', k⟩, true⟩ := by
  rw [← ofEntries_memberNodes inside]
  obtain ⟨⟨key, v⟩, rest, rfl⟩ := List.exists_cons_of_ne_nil inhabited
  obtain ⟨⟨⟨cs, isKey, named⟩, value⟩, -⟩ := List.forall_mem_cons.mp inside
  obtain rfl : key = .text (Text.ofChars cs) := named
  replace value : ReadsMember column v := value
  have first := List.length_pos_iff.mpr isKey.word.inhabited
  simp only [writeMembers_cons isKey, List.append_assoc, List.cons_append, List.length_append,
    List.length_cons] at enough ⊢
  have right : column ≤ column + cs.length + 1 := by omega
  obtain ⟨line', read⟩ := @readMembers_entries column k fuel more v _ [] rest inside ends line _
    right (by rw [List.length_append]; omega)
  refine ⟨line', ?_⟩
  rw [readNode_key isKey (value.blank _ _), read, List.reverse_nil, List.nil_append]

/-- A mapping below its key. -/
theorem readsMember_map (inside : ∀ e ∈ entries, ReadsEntry (column + 2) e)
    (inhabited : entries ≠ []) (distinct : (entries.map Prod.fst).Nodup) :
    ReadsMember column (.map entries) := by
  have written (width : Nat) : writeMember column width true (.map entries) =
      newLine (column + 2) ++ writeMembers (column + 2) entries := by
    obtain ⟨e, rest, rfl⟩ := List.exists_cons_of_ne_nil inhabited
    simp [writeMember]
  refine ⟨fun width => ?_, means_entries inside distinct, fun width rest => ?_,
    fun width k more fuel line col follows right enough => ?_⟩
  · simp [written, onPage_writeMembers inside]
  · simp [written, newLine, isSpaceOrEnd, isBreak]
  · obtain ⟨fuel, rfl⟩ : ∃ fuel', fuel = fuel' + 2 := ⟨fuel - 2, by omega⟩
    have enough : (writeMembers (column + 2) entries).length + 2 ≤ fuel := by
      simp only [written, newLine, List.length_append, List.length_cons,
        List.length_replicate] at enough
      omega
    have ends : more = [] ∨ StartsKey more ∧ k < column + 2 :=
      follows.imp_right (And.imp_right fun left => by omega)
    obtain ⟨line', read⟩ := readNode_map inside inhabited ends (column + 1) (line + 1) enough
    refine ⟨line', ?_⟩
    have starts := startsKey_writeMembers inside inhabited (newLine k ++ more)
    have passed := skipGap_newLine line col (column + 2) (.inr starts.isToken)
    rw [written, List.append_assoc, readPart]
    simp [passed, starts.not_atEnd, read]

/-! ## Values that hold no others -/

theorem readsMember_bool (b : Bool) : ReadsMember column (.bool b) := by
  have written (col : Nat) : writeScalar lineWidth (column + 2) col (.bool b) =
      if b then "true".toList else "false".toList := rfl
  refine readsMember_of_inline (fun width => by simp [writeMember]) (fun col => ?_) (means_bool b)
    fun col k more below => ?_
  · rw [written]
    cases b <;> decide
  · rw [written]
    exact (readsScalar_bool (ends_newLine below) b).readsNode below

theorem readsMember_int {z : Int} (short : Numeral.isShort z = true) :
    ReadsMember column (.int z) := by
  refine readsMember_of_inline (fun width => by simp [writeMember]) (fun col => ?_)
    (means_int short) fun col k more below => ?_
  · exact onPage_decimal z
  · exact (readsScalar_int z (ends_newLine below)).readsNode below

theorem readsMember_emptyList : ReadsMember column (.list []) := by
  refine readsMember_of_inline (fun width => by simp [writeMember]) (fun col => ?_)
    (means_list nofun) fun col k more below => ?_
  · have page : OnPage "[]".toList := by decide
    exact page
  · exact readsNode_emptyList below

section

variable {t : Text} (printable : t.Printable) (narrow : column + 2 < lineWidth)
include printable narrow

theorem readsMember_text : ReadsMember column (.text t) := by
  obtain ⟨cs, rfl⟩ := Text.exists_ofChars printable
  refine readsMember_of_inline (fun width => by simp [writeMember]) (fun col => ?_)
    (means_text cs) fun col k more below => ?_
  · exact onPage_writeText cs
  · exact (readsScalar_text cs below (by omega) (by omega) narrow col).readsNode below

theorem readsItem_text : ReadsItem column (.text t) := by
  obtain ⟨cs, rfl⟩ := Text.exists_ofChars printable
  have written : writeItem (column + 2) (.text (Text.ofChars cs)) =
      writeText lineWidth (column + 2) (column + 2) (Text.ofChars cs) := by
    simp [writeItem, writeScalar]
  refine ⟨written ▸ onPage_writeText cs, means_text cs, fun k more below => ?_⟩
  rw [written]
  exact (readsScalar_text cs below (by omega) (by omega) narrow _).readsNode below

end

/-- A list of texts, none of which needs to be there. -/
theorem readsMember_texts {texts : List Text} (printable : ∀ t ∈ texts, t.Printable)
    (narrow : column + 2 < lineWidth) : ReadsMember column (.list (texts.map .text)) := by
  cases texts with
  | nil => exact readsMember_emptyList
  | cons t texts =>
      refine readsMember_list (fun v member => ?_) (by simp)
      obtain ⟨t, inside, rfl⟩ := List.mem_map.mp member
      exact readsItem_text (printable t inside) narrow

/-! ## Documents -/

/-- A text that starts with a key is a document if there is nothing behind its node. -/
theorem read_of_readNode (page : OnPage cs) (starts : StartsKey cs)
    (read : readNode (4 * cs.length + 4) 0 true ⟨cs, 0, 0⟩ = .ok ⟨node, ⟨[], line, 0⟩, true⟩)
    (means : Means node v) : Yaml.read cs = .ok v := by
  have noMark : ∀ rest, cs = '\ufeff' :: rest → False := fun rest same =>
    starts.ne (.inr (by decide)) (congrArg List.head? same)
  have goesOn : (Cursor.mk cs 0 0).atEnd = false := starts.not_atEnd
  have noMarker : (Cursor.mk cs 0 0).isMarker "---" = false := by
    simp only [Cursor.atEnd, Bool.or_eq_false_iff] at goesOn
    exact goesOn.1.2
  have passed : (Cursor.mk cs 0 0).skipGap = ⟨cs, 0, 0⟩ :=
    skipGap_spaces 0 0 0 (.inr starts.isToken)
  have parsed : parse cs = .ok node := by
    rw [parse.eq_2 cs noMark]
    simp [page.all_isAllowed, passed, noMarker, goesOn, read, endsDocument, bind, Except.bind, pure,
      Except.pure]
  rw [Yaml.read, parsed]
  exact means.value

theorem document_map (inhabited : entries ≠ []) :
    document (.map entries) = writeMembers 0 entries ++ (newLine 0 ++ []) := by
  obtain ⟨e, rest, rfl⟩ := List.exists_cons_of_ne_nil inhabited
  simp [document, writeItem, newLine]

theorem onPage_document (inside : ∀ e ∈ entries, ReadsEntry 0 e) (inhabited : entries ≠ []) :
    OnPage (document (.map entries)) := by
  simp [document_map inhabited, onPage_writeMembers inside]

/-- A mapping is read back from its document. -/
theorem read_document (inside : ∀ e ∈ entries, ReadsEntry 0 e) (inhabited : entries ≠ [])
    (distinct : (entries.map Prod.fst).Nodup) :
    read (document (.map entries)) = .ok (.map entries) := by
  have written := document_map inhabited
  have enough : (writeMembers 0 entries).length + 2 ≤ 4 * (document (.map entries)).length + 3 := by
    rw [written, List.length_append]
    omega
  obtain ⟨line, read⟩ := readNode_map inside inhabited (.inl rfl) 0 0 enough
  rw [← written] at read
  refine read_of_readNode (onPage_document inside inhabited) ?_ read (means_entries inside distinct)
  exact written ▸ startsKey_writeMembers inside inhabited _

end Bytewise.Yaml

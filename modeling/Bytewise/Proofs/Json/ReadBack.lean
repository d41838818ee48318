import Bytewise.Proofs.Json.Scalars
import Bytewise.Proofs.Value

/-!
# JSON documents read back

A written value is read back whatever its depth and whatever closes it (`Json.ReadsBack`), by
induction on the value: items and members are written each on a line of its own, and behind each
stands a comma or the line of the closing bracket. The fuel of the reader counts characters, since
every call passes over at least one, so the length of the text is enough.

The only line breaks that the writer uses are line feeds (`Json.return_not_mem_writeAt`), so nothing
is changed when a document is read as a text file.
-/

namespace Bytewise.Json

variable {depth outer fuel : Nat} {cs rest : List Char} {c : Char} {v : Value} {items : List Value}
  {entries done : List (Value × Value)} {t : Text}

-- Writer and reader are opened along the constructors of the value everywhere below.
attribute [local simp] writeAt writeItems writeEntries readValue readItems readMembers

/-! ## Blanks -/

theorem skipBlanks_cons (shown : isBlank c = false) : skipBlanks (c :: cs) = c :: cs := by
  rw [skipBlanks, List.dropWhile_cons_of_neg (by simp [shown])]

theorem skipBlanks_newLine (depth : Nat) (shown : isBlank c = false) :
    skipBlanks (newLine depth ++ c :: cs) = c :: cs := by
  have blanks : ∀ b ∈ newLine depth, isBlank b = true := by
    intro b member
    obtain rfl | member := List.mem_cons.mp member
    · rfl
    · rw [(List.mem_replicate.mp member).2]
      rfl
  rw [skipBlanks, List.dropWhile_append_of_pos blanks]
  exact skipBlanks_cons shown

theorem closes_newLine (depth : Nat) (cs : List Char) : Closes (newLine depth ++ cs) := .line _

theorem length_newLine_pos (depth : Nat) : 0 < (newLine depth).length := Nat.succ_pos _

/-! ## Values -/

/-- The character that a value begins with: no blank, and nothing that ends a list. -/
def Begins (cs : List Char) : Prop := ∃ c more, cs = c :: more ∧ isBlank c = false ∧ c ≠ ']'

theorem Begins.skipBlanks {after : List Char} (begins : Begins cs) :
    skipBlanks (newLine depth ++ (cs ++ after)) = cs ++ after := by
  obtain ⟨c, more, rfl, blank, _⟩ := begins
  exact skipBlanks_newLine depth blank

/-- A value is read back at any depth, in front of anything that may stand behind it. -/
structure ReadsBack (v : Value) : Prop where
  begins : ∀ depth, Begins (writeAt depth v)
  reads : ∀ depth {fuel rest}, Closes rest → (writeAt depth v).length ≤ fuel →
    readValue fuel (writeAt depth v ++ rest) = .ok (v, rest)

theorem readsBack_of_scalar (written : ∀ depth, writeAt depth v = c :: cs)
    (blank : isBlank c = false) (noEnd : c ≠ ']') (noList : c ≠ '[') (noMap : c ≠ '\x7b')
    (reads : ∀ {rest}, Closes rest → readScalar (c :: cs ++ rest) = .ok (v, rest)) :
    ReadsBack v where
  begins := fun depth => ⟨c, cs, written depth, blank, noEnd⟩
  reads := by
    intro depth fuel rest closes enough
    rw [written, List.length_cons] at enough
    obtain ⟨fuel, rfl⟩ := Nat.exists_eq_succ_of_ne_zero (by omega : fuel ≠ 0)
    rw [written, ← reads closes, List.cons_append, readValue]
    · exact fun _ same => noList (List.cons.inj same).1
    · exact fun _ same => noMap (List.cons.inj same).1

theorem readsBack_null : ReadsBack .null :=
  readsBack_of_scalar (fun _ => by simp only [writeAt]; rfl) rfl (by decide) (by decide)
    (by decide) fun _ => readScalar_null _

theorem readsBack_bool (b : Bool) : ReadsBack (.bool b) := by
  cases b with
  | false =>
      exact readsBack_of_scalar (fun _ => by simp only [writeAt]; rfl) rfl (by decide) (by decide)
        (by decide) fun _ => readScalar_bool false _
  | true =>
      exact readsBack_of_scalar (fun _ => by simp only [writeAt]; rfl) rfl (by decide) (by decide)
        (by decide) fun _ => readScalar_bool true _

theorem readsBack_int {z : Int} (short : Numeral.isShort z = true) : ReadsBack (.int z) := by
  obtain ⟨c, cs, written⟩ := List.exists_cons_of_ne_nil (Numeral.decimal_ne_nil z)
  have other {x : Char} : Numeral.isDigit 10 x = false ∧ x ≠ '-' → c ≠ x :=
    Numeral.ne_of_mem_decimal (written ▸ List.mem_cons_self)
  have blank : isBlank c = false := by
    simp [isBlank, other (x := ' ') (by decide), other (x := '\t') (by decide),
      other (x := '\n') (by decide), other (x := '\r') (by decide)]
  refine readsBack_of_scalar (fun _ => by simp only [writeAt, writeScalar]; exact written) blank
    (other (by decide)) (other (by decide)) (other (by decide)) fun closes => ?_
  rw [← written]
  exact readScalar_decimal short closes

theorem readsBack_text (printable : t.Printable) : ReadsBack (.text t) :=
  readsBack_of_scalar (fun _ => by simp only [writeAt, writeScalar, writeString]; rfl) rfl
    (by decide) (by decide) (by decide) fun _ => readScalar_writeString printable _

/-! ## Lists -/

theorem readValue_bracket {more : List Char} (shown : skipBlanks cs = c :: more) (noEnd : c ≠ ']') :
    readValue (fuel + 1) ('[' :: cs) = readItems fuel [] (skipBlanks cs) := by
  rw [readValue, shown]
  split
  next same => exact absurd (List.cons.inj same).1 noEnd
  next => rfl

/-- One item, in front of a comma or the closing bracket. -/
theorem readItems_item {done : List Value} {after : List Char} (item : ReadsBack v)
    (closes : Closes after) (enough : (writeAt depth v).length ≤ fuel) :
    readItems (fuel + 1) done (writeAt depth v ++ after) =
      match skipBlanks after with
      | ',' :: rest => readItems fuel (v :: done) (skipBlanks rest)
      | ']' :: rest => .ok (.list (v :: done).reverse, rest)
      | _ => .error .malformed := by
  rw [readItems, item.reads depth closes enough]
  rfl

/-- The items of a list are read back up to the closing bracket. -/
theorem readItems_writeItems (depth outer : Nat) (done : List Value) (rest : List Char)
    (inhabited : items ≠ []) (inside : ∀ v ∈ items, ReadsBack v)
    (enough : (writeItems depth items).length ≤ fuel) :
    readItems fuel done
        (skipBlanks (writeItems depth items ++ (newLine outer ++ ']' :: rest))) =
      .ok (.list (done.reverse ++ items), rest) := by
  induction items generalizing fuel done with
  | nil => exact absurd rfl inhabited
  | cons v items ih =>
      obtain ⟨first, others⟩ := List.forall_mem_cons.mp inside
      have line := length_newLine_pos depth
      cases items with
      | nil =>
          rw [writeItems, List.length_append] at enough
          obtain ⟨fuel, rfl⟩ := Nat.exists_eq_succ_of_ne_zero (by omega : fuel ≠ 0)
          rw [writeItems, List.append_assoc, (first.begins depth).skipBlanks,
            readItems_item first (closes_newLine _ _) (by omega), skipBlanks_newLine outer rfl]
          simp
      | cons w items =>
          rw [writeItems, List.length_append, List.length_append, List.length_cons] at enough
          obtain ⟨fuel, rfl⟩ := Nat.exists_eq_succ_of_ne_zero (by omega : fuel ≠ 0)
          have next := @ih fuel (v :: done) (by simp) others (by omega)
          rw [writeItems, List.append_assoc, List.append_assoc, List.cons_append,
            (first.begins depth).skipBlanks, readItems_item first (.comma _) (by omega),
            skipBlanks_cons rfl]
          simp only [next, List.reverse_cons, List.append_assoc, List.cons_append,
            List.nil_append]

theorem readsBack_list (inside : ∀ v ∈ items, ReadsBack v) : ReadsBack (.list items) where
  begins := by
    intro depth
    cases items with
    | nil => exact ⟨'[', _, by simp only [writeAt]; rfl, rfl, by decide⟩
    | cons => exact ⟨'[', _, by simp only [writeAt]; rfl, rfl, by decide⟩
  reads := by
    intro depth fuel rest closes enough
    cases items with
    | nil =>
        simp only [writeAt] at enough ⊢
        obtain ⟨fuel, rfl⟩ := Nat.exists_eq_add_one.mpr (Nat.zero_lt_of_lt enough)
        rfl
    | cons v items =>
        simp only [writeAt, List.cons_append, List.length_cons, List.length_append,
          List.append_assoc, List.nil_append] at enough ⊢
        obtain ⟨fuel, rfl⟩ := Nat.exists_eq_succ_of_ne_zero (by omega : fuel ≠ 0)
        have read := readItems_writeItems (depth + 1) depth [] rest (List.cons_ne_nil v items)
          inside (by omega : _ ≤ fuel)
        obtain ⟨c, cs, written, blank, noEnd⟩ := (inside v List.mem_cons_self).begins (depth + 1)
        obtain ⟨more, shown⟩ : ∃ more, skipBlanks (writeItems (depth + 1) (v :: items) ++
            (newLine depth ++ ']' :: rest)) = c :: more := by
          cases items with
          | nil =>
              rw [writeItems, List.append_assoc, written]
              exact ⟨_, skipBlanks_newLine (depth + 1) blank⟩
          | cons =>
              rw [writeItems, List.append_assoc, List.append_assoc, written]
              exact ⟨_, skipBlanks_newLine (depth + 1) blank⟩
        rw [readValue_bracket shown noEnd, read]
        rfl

/-! ## Mappings -/

theorem readValue_brace {more : List Char} (shown : skipBlanks cs = '"' :: more) :
    readValue (fuel + 1) ('\x7b' :: cs) = readMembers fuel [] (skipBlanks cs) := by
  rw [readValue, shown]
  rfl

/-- One member with a new key, in front of a comma or the closing bracket. -/
theorem readMembers_member {after : List Char} (printable : t.Printable)
    (new : ∀ e ∈ done, e.1 ≠ .text t) (member : ReadsBack v) (closes : Closes after)
    (enough : (writeAt depth v).length ≤ fuel) :
    readMembers (fuel + 1) done (writeString t ++ ':' :: ' ' :: (writeAt depth v ++ after)) =
      match skipBlanks after with
      | ',' :: rest => readMembers fuel (done ++ [(.text t, v)]) (skipBlanks rest)
      | '\x7d' :: rest => .ok (.map (done ++ [(.text t, v)]), rest)
      | _ => .error .malformed := by
  have key := readString_writeString printable (':' :: ' ' :: (writeAt depth v ++ after))
  obtain ⟨c, cs, written, blank, _⟩ := member.begins depth
  have value : skipBlanks (' ' :: (writeAt depth v ++ after)) = writeAt depth v ++ after := by
    rw [written]
    exact skipBlanks_cons blank
  simp only [writeString, List.cons_append, List.append_assoc, List.nil_append, readMembers, key,
    bind, Except.bind, skipBlanks_cons (c := ':') rfl, value, member.reads depth closes enough,
    Value.insert_of_new new]
  rfl

/-- The members of a mapping are read back up to the closing bracket. -/
theorem readMembers_writeEntries (done : List (Value × Value)) (depth outer : Nat)
    (rest : List Char) (inhabited : entries ≠ [])
    (keys : ∀ e ∈ entries, ∃ t : Text, t.Printable ∧ e.1 = .text t)
    (distinct : ((done ++ entries).map Prod.fst).Nodup) (inside : ∀ e ∈ entries, ReadsBack e.2)
    (enough : (writeEntries depth entries).length ≤ fuel) :
    readMembers fuel done
        (skipBlanks (writeEntries depth entries ++ (newLine outer ++ '\x7d' :: rest))) =
      .ok (.map (done ++ entries), rest) := by
  induction entries generalizing fuel done with
  | nil => exact absurd rfl inhabited
  | cons e entries ih =>
      obtain ⟨k, v⟩ := e
      obtain ⟨⟨t, printable, key⟩, otherKeys⟩ := List.forall_mem_cons.mp keys
      obtain ⟨first, others⟩ := List.forall_mem_cons.mp inside
      obtain rfl : k = .text t := key
      replace first : ReadsBack v := first
      have line := length_newLine_pos depth
      have new := Value.ne_of_nodup distinct
      have skipped (after : List Char) :
          skipBlanks (newLine depth ++ (writeString t ++ after)) = writeString t ++ after :=
        skipBlanks_newLine depth rfl
      cases entries with
      | nil =>
          simp only [writeEntries, writeKey, List.length_append, List.length_cons] at enough
          obtain ⟨fuel, rfl⟩ := Nat.exists_eq_succ_of_ne_zero (by omega : fuel ≠ 0)
          simp only [writeEntries, writeKey, List.append_assoc, List.cons_append, skipped]
          rw [readMembers_member printable new first (closes_newLine _ _) (by omega),
            skipBlanks_newLine outer rfl]
          rfl
      | cons e entries =>
          simp only [writeEntries, writeKey, List.length_append, List.length_cons] at enough
          obtain ⟨fuel, rfl⟩ := Nat.exists_eq_succ_of_ne_zero (by omega : fuel ≠ 0)
          have next := @ih fuel (done ++ [(.text t, v)]) (by simp) otherKeys
            (by simpa using distinct) others (by omega)
          simp only [writeEntries, writeKey, List.append_assoc, List.cons_append, skipped]
          rw [readMembers_member printable new first (.comma _) (by omega), skipBlanks_cons rfl]
          simp only [next, List.append_assoc, List.cons_append, List.nil_append]

theorem readsBack_map (keys : ∀ e ∈ entries, ∃ t : Text, t.Printable ∧ e.1 = .text t)
    (distinct : (entries.map Prod.fst).Nodup) (inside : ∀ e ∈ entries, ReadsBack e.2) :
    ReadsBack (.map entries) where
  begins := by
    intro depth
    cases entries with
    | nil => exact ⟨'\x7b', _, by simp only [writeAt]; rfl, rfl, by decide⟩
    | cons => exact ⟨'\x7b', _, by simp only [writeAt]; rfl, rfl, by decide⟩
  reads := by
    intro depth fuel rest closes enough
    cases entries with
    | nil =>
        simp only [writeAt] at enough ⊢
        obtain ⟨fuel, rfl⟩ := Nat.exists_eq_add_one.mpr (Nat.zero_lt_of_lt enough)
        rfl
    | cons e entries =>
        simp only [writeAt, List.cons_append, List.length_cons, List.length_append,
          List.append_assoc, List.nil_append] at enough ⊢
        obtain ⟨fuel, rfl⟩ := Nat.exists_eq_succ_of_ne_zero (by omega : fuel ≠ 0)
        have read := readMembers_writeEntries [] (depth + 1) depth rest
          (List.cons_ne_nil e entries) keys distinct inside (by omega : _ ≤ fuel)
        obtain ⟨k, v⟩ := e
        obtain ⟨t, _, rfl⟩ := keys _ List.mem_cons_self
        obtain ⟨more, shown⟩ : ∃ more, skipBlanks (writeEntries (depth + 1)
            ((.text t, v) :: entries) ++ (newLine depth ++ '\x7d' :: rest)) = '"' :: more := by
          cases entries with
          | nil =>
              simp only [writeEntries, writeKey, writeString, List.append_assoc, List.cons_append]
              exact ⟨_, skipBlanks_newLine (depth + 1) rfl⟩
          | cons =>
              simp only [writeEntries, writeKey, writeString, List.append_assoc, List.cons_append]
              exact ⟨_, skipBlanks_newLine (depth + 1) rfl⟩
        rw [readValue_brace shown, read]
        rfl

/-! ## Documents -/

theorem readsBack_of_isJson (isJson : v.IsJson) : ReadsBack v := by
  induction isJson with
  | null => exact readsBack_null
  | bool b => exact readsBack_bool b
  | int short => exact readsBack_int short
  | text printable => exact readsBack_text printable
  | list _ inside => exact readsBack_list inside
  | map keys distinct _ inside => exact readsBack_map keys distinct inside

theorem firstFault?_of_isJson (isJson : v.IsJson) : v.firstFault? fault? = none := by
  induction isJson with
  | null => rfl
  | bool b => rfl
  | int short => simp [Value.firstFault?, fault?, short]
  | text printable => rfl
  | list _ inside =>
      rw [Value.firstFault?]
      exact Value.firstItemFault?_eq_none inside
  | map keys _ _ inside =>
      rw [Value.firstFault?]
      refine Value.firstEntryFault?_eq_none (fun e member => ?_) inside
      obtain ⟨t, _, key⟩ := keys e member
      rw [key]
      rfl

theorem write_of_isJson (isJson : v.IsJson) : write v = .ok (document v) := by
  rw [write, firstFault?_of_isJson isJson]

/-! ## Line breaks -/

theorem return_not_mem_unitEscape (n : Nat) : '\r' ∉ unitEscape n := by
  intro member
  obtain same | member := List.mem_cons.mp member
  · exact absurd same (by decide)
  · obtain same | digit := List.mem_cons.mp member
    · exact absurd same (by decide)
    · exact absurd (Numeral.isDigit_of_mem_zeroPadded (by decide) (by decide) digit) (by decide)

theorem return_not_mem_writeSymbol (s : Symbol) : '\r' ∉ writeSymbol s := by
  cases s with
  | stray b => exact return_not_mem_unitEscape _
  | char c =>
      rw [writeSymbol]
      -- The seven short escapes come first.
      iterate 7
        split
        next => decide
      split
      next shown =>
        intro member
        rw [← List.mem_singleton.mp member] at shown
        exact absurd shown (by decide)
      split
      next => exact return_not_mem_unitEscape _
      next =>
        rw [List.mem_append, not_or]
        exact ⟨return_not_mem_unitEscape _, return_not_mem_unitEscape _⟩

theorem return_not_mem_writeString (t : Text) : '\r' ∉ writeString t := by
  have inside : '\r' ∉ t.flatMap writeSymbol := by
    intro member
    obtain ⟨s, _, inside⟩ := List.mem_flatMap.mp member
    exact return_not_mem_writeSymbol s inside
  simp [writeString, inside]

theorem return_not_mem_newLine (depth : Nat) : '\r' ∉ newLine depth := by
  simp [newLine]

theorem return_not_mem_writeItems (inside : ∀ v ∈ items, '\r' ∉ writeAt depth v) :
    '\r' ∉ writeItems depth items := by
  induction items with
  | nil => simp
  | cons v items ih =>
      obtain ⟨first, others⟩ := List.forall_mem_cons.mp inside
      cases items with
      | nil => simp [first, return_not_mem_newLine]
      | cons => simp [first, ih others, return_not_mem_newLine]

theorem return_not_mem_writeEntries (keys : ∀ e ∈ entries, ∃ t : Text, t.Printable ∧ e.1 = .text t)
    (inside : ∀ e ∈ entries, '\r' ∉ writeAt depth e.2) : '\r' ∉ writeEntries depth entries := by
  induction entries with
  | nil => simp
  | cons e entries ih =>
      obtain ⟨k, v⟩ := e
      obtain ⟨⟨t, _, rfl⟩, otherKeys⟩ := List.forall_mem_cons.mp keys
      obtain ⟨first, others⟩ := List.forall_mem_cons.mp inside
      have key : '\r' ∉ writeKey (.text t) := return_not_mem_writeString t
      cases entries with
      | nil => simp [key, first, return_not_mem_newLine]
      | cons => simp [key, first, ih otherKeys others, return_not_mem_newLine]

/-- A document has no carriage return. -/
theorem return_not_mem_writeAt (isJson : v.IsJson) (depth : Nat) : '\r' ∉ writeAt depth v := by
  induction isJson generalizing depth with
  | null => simp [writeScalar]
  | bool b => cases b <;> simp [writeScalar]
  | int short =>
      simp only [writeAt, writeScalar]
      intro member
      obtain digit | minus := Numeral.isDigit_or_minus_of_mem_decimal member
      · exact absurd digit (by decide)
      · exact absurd minus (by decide)
  | text printable =>
      simp only [writeAt, writeScalar]
      exact return_not_mem_writeString _
  | @list items _ inside =>
      have within := return_not_mem_writeItems fun v member => inside v member (depth + 1)
      cases items with
      | nil => simp
      | cons => simp [within, return_not_mem_newLine]
  | @map entries keys _ _ inside =>
      have within := return_not_mem_writeEntries keys fun e member => inside e member (depth + 1)
      cases entries with
      | nil => simp
      | cons => simp [within, return_not_mem_newLine]

/-- The document of a mapping is not blank. -/
theorem not_blank_document_map (entries : List (Value × Value)) :
    (document (.map entries)).all isBlankChar = false := by
  have shown : isBlankChar '\x7b' = false := by decide
  cases entries with
  | nil => simp [document, shown]
  | cons => simp [document, shown]

/-- A document is read back as the value that was written. -/
theorem read_document (isJson : v.IsJson) : read (document v) = .ok v := by
  have back := readsBack_of_isJson isJson
  obtain ⟨c, cs, written, blank, _⟩ := back.begins 0
  have value := back.reads 0 .nothing
    (by omega : (writeAt 0 v).length ≤ 2 * (writeAt 0 v).length + 2)
  rw [List.append_nil] at value
  have start : skipBlanks (writeAt 0 v) = writeAt 0 v := by
    rw [written]
    exact skipBlanks_cons blank
  rw [read, document, start, value]
  rfl

end Bytewise.Json

import Bytewise.Text.Utf8

/-!
# Reading back what was written

A text without stray bytes is read back from its bytes as it was (`Utf8.decode_encode`). A character
is written in one to four bytes, and each of the four forms is one that the reader takes for a
character: the lead byte tells the form, and the bounds on the second byte exclude neither the
shortest form nor anything that is not a surrogate.
-/

namespace Bytewise

/-- A text without stray bytes. -/
def Text.Printable (t : Text) : Prop := ∀ s ∈ t, s.char?.isSome = true

namespace Text

variable {t u : Text}

theorem printable_ofChars (cs : List Char) : (ofChars cs).Printable := by
  intro s member
  obtain ⟨c, -, rfl⟩ := List.mem_map.mp member
  rfl

theorem exists_ofChars (printable : t.Printable) : ∃ cs, t = ofChars cs := by
  induction t with
  | nil => exact ⟨[], rfl⟩
  | cons s t ih =>
      obtain ⟨first, others⟩ := List.forall_mem_cons.mp printable
      obtain ⟨cs, rfl⟩ := ih others
      cases s with
      | stray b => cases first
      | char c => exact ⟨c :: cs, rfl⟩

/-- No character is replaced in a text that has no stray bytes. -/
theorem map_getD_ofChars (other : Char) (cs : List Char) :
    (ofChars cs).map (fun s => s.char?.getD other) = cs := by
  rw [ofChars, List.map_map]
  exact List.map_id cs

theorem chars?_ofChars (cs : List Char) : (ofChars cs).chars? = some cs := by
  induction cs with
  | nil => rfl
  | cons c cs ih =>
      rw [chars?, ofChars] at ih
      simp [chars?, ofChars, List.mapM_cons, Symbol.char?, ih]

theorem chars?_eq_some_iff {cs : List Char} : t.chars? = some cs ↔ t = ofChars cs := by
  constructor
  · intro chars
    induction t generalizing cs with
    | nil =>
        obtain rfl : [] = cs := by simpa [chars?] using chars
        rfl
    | cons s t ih =>
        obtain ⟨c, first, cs', others, rfl⟩ :
            ∃ c, s.char? = some c ∧ ∃ cs', chars? t = some cs' ∧ c :: cs' = cs := by
          simpa [chars?, Option.bind_eq_some_iff] using chars
        cases s with
        | stray b => cases first
        | char c =>
            cases first
            rw [ih others]
            rfl
  · rintro rfl
    exact chars?_ofChars cs

theorem printable_append : (t ++ u).Printable ↔ t.Printable ∧ u.Printable := by
  simp only [Printable, List.mem_append, or_imp, forall_and]

end Text

namespace Utf8

variable {a b c d low high : UInt8} {rest : Bytes}

theorem between_iff : (decide (low ≤ b) && decide (b ≤ high)) = true ↔
    low.toNat ≤ b.toNat ∧ b.toNat ≤ high.toNat := by
  simp only [Bool.and_eq_true, decide_eq_true_eq, UInt8.le_iff_toNat_le]

theorem not_between_of_gt (beyond : high.toNat < b.toNat) :
    ¬ (decide (low ≤ b) && decide (b ≤ high)) = true := by
  rw [between_iff]
  omega

theorem not_lt_of_le (lead : low.toNat ≤ a.toNat) : ¬ a < low := by
  rw [UInt8.lt_iff_toNat_lt]
  omega

/-! ## The four forms of a character -/

theorem first?_one (lead : a.toNat < 0x80) :
    first? (a :: rest) = some (Char.ofNat a.toNat, 1) := by
  unfold first?
  dsimp only
  rw [if_pos (UInt8.lt_iff_toNat_lt.mpr lead)]

theorem first?_two (lead : 0xC2 ≤ a.toNat ∧ a.toNat ≤ 0xDF)
    (next : 0x80 ≤ b.toNat ∧ b.toNat ≤ 0xBF) :
    first? (a :: b :: rest) =
      some (Char.ofNat ((a.toNat - 0xC0) * 64 + (b.toNat - 0x80)), 2) := by
  have notOne : ¬ a < 0x80 := not_lt_of_le (Nat.le_trans (by decide) lead.1)
  have two : (decide (0xC2 ≤ a) && decide (a ≤ 0xDF)) = true := between_iff.mpr lead
  have continues : isContinuation b = true := between_iff.mpr next
  unfold first?
  dsimp only
  rw [if_neg notOne, if_pos two, if_pos continues]
  rfl

theorem first?_three (lead : 0xE0 ≤ a.toNat ∧ a.toNat ≤ 0xEF)
    (next : 0x80 ≤ b.toNat ∧ b.toNat ≤ 0xBF) (last : 0x80 ≤ c.toNat ∧ c.toNat ≤ 0xBF)
    (shortest : a.toNat = 0xE0 → 0xA0 ≤ b.toNat) (noSurrogate : a.toNat = 0xED → b.toNat ≤ 0x9F) :
    first? (a :: b :: c :: rest) =
      some (Char.ofNat (((a.toNat - 0xE0) * 64 + (b.toNat - 0x80)) * 64 +
        (c.toNat - 0x80)), 3) := by
  have notOne : ¬ a < 0x80 := not_lt_of_le (Nat.le_trans (by decide) lead.1)
  have notTwo : ¬ (decide (0xC2 ≤ a) && decide (a ≤ 0xDF)) = true :=
    not_between_of_gt (Nat.le_trans (by decide) lead.1)
  have three : (decide (0xE0 ≤ a) && decide (a ≤ 0xEF)) = true := between_iff.mpr lead
  have least : (if a = 0xE0 then 0xA0 else 0x80 : UInt8).toNat ≤ b.toNat := by
    split
    next zero => exact shortest (zero ▸ rfl)
    next => exact next.1
  have most : b.toNat ≤ (if a = 0xED then 0x9F else 0xBF : UInt8).toNat := by
    split
    next surrogate => exact noSurrogate (surrogate ▸ rfl)
    next => exact next.2
  have continues : isContinuation c = true := between_iff.mpr last
  unfold first?
  dsimp only
  rw [if_neg notOne, if_neg notTwo, if_pos three,
    if_pos (Bool.and_eq_true_iff.mpr ⟨between_iff.mpr ⟨least, most⟩, continues⟩)]
  rfl

theorem first?_four (lead : 0xF0 ≤ a.toNat ∧ a.toNat ≤ 0xF4)
    (next : 0x80 ≤ b.toNat ∧ b.toNat ≤ 0xBF) (third : 0x80 ≤ c.toNat ∧ c.toNat ≤ 0xBF)
    (last : 0x80 ≤ d.toNat ∧ d.toNat ≤ 0xBF)
    (shortest : a.toNat = 0xF0 → 0x90 ≤ b.toNat) (fits : a.toNat = 0xF4 → b.toNat ≤ 0x8F) :
    first? (a :: b :: c :: d :: rest) =
      some (Char.ofNat ((((a.toNat - 0xF0) * 64 + (b.toNat - 0x80)) * 64 + (c.toNat - 0x80)) * 64 +
        (d.toNat - 0x80)), 4) := by
  have notOne : ¬ a < 0x80 := not_lt_of_le (Nat.le_trans (by decide) lead.1)
  have notTwo : ¬ (decide (0xC2 ≤ a) && decide (a ≤ 0xDF)) = true :=
    not_between_of_gt (Nat.le_trans (by decide) lead.1)
  have notThree : ¬ (decide (0xE0 ≤ a) && decide (a ≤ 0xEF)) = true :=
    not_between_of_gt (Nat.le_trans (by decide) lead.1)
  have four : (decide (0xF0 ≤ a) && decide (a ≤ 0xF4)) = true := between_iff.mpr lead
  have least : (if a = 0xF0 then 0x90 else 0x80 : UInt8).toNat ≤ b.toNat := by
    split
    next zero => exact shortest (zero ▸ rfl)
    next => exact next.1
  have most : b.toNat ≤ (if a = 0xF4 then 0x8F else 0xBF : UInt8).toNat := by
    split
    next top => exact fits (top ▸ rfl)
    next => exact next.2
  have continues : isContinuation c = true := between_iff.mpr third
  have continues' : isContinuation d = true := between_iff.mpr last
  have accepted := Bool.and_eq_true_iff.mpr
    ⟨Bool.and_eq_true_iff.mpr ⟨between_iff.mpr ⟨least, most⟩, continues⟩, continues'⟩
  unfold first?
  dsimp only
  rw [if_neg notOne, if_neg notTwo, if_neg notThree, if_pos four, if_pos accepted]
  rfl

/-! ## Characters and texts -/

theorem toNat_ofNat {n : Nat} (fits : n < 256) : (UInt8.ofNat n).toNat = n :=
  Nat.mod_eq_of_lt fits

/-- The reader takes the bytes of a character for that character. -/
theorem first?_encodeChar (c : Char) (rest : Bytes) :
    first? (String.utf8EncodeChar c ++ rest) = some (c, (String.utf8EncodeChar c).length) := by
  have valid : c.toNat < 0xD800 ∨ 0xDFFF < c.toNat ∧ c.toNat < 0x110000 := c.valid
  have whole : Char.ofNat c.toNat = c := Char.ofNat_toNat c
  have number : c.val.toNat = c.toNat := rfl
  simp only [String.utf8EncodeChar, number]
  generalize c.toNat = v at valid whole ⊢
  subst whole
  split
  next one =>
    have a := toNat_ofNat (n := v) (by omega)
    refine (first?_one (by omega)).trans ?_
    rw [a]
    rfl
  next notOne =>
    have last := toNat_ofNat (n := v % 64 + 128) (by omega)
    split
    next two =>
      have lead := toNat_ofNat (n := v / 64 % 32 + 192) (by omega)
      refine (first?_two (by omega) (by omega)).trans ?_
      rw [lead, last, show (v / 64 % 32 + 192 - 192) * 64 + (v % 64 + 128 - 128) = v by omega]
      rfl
    next notTwo =>
      have third := toNat_ofNat (n := v / 64 % 64 + 128) (by omega)
      split
      next three =>
        have lead := toNat_ofNat (n := v / 4096 % 16 + 224) (by omega)
        refine (first?_three (by omega) (by omega) (by omega) (by omega) (by omega)).trans ?_
        rw [lead, third, last, show ((v / 4096 % 16 + 224 - 224) * 64 + (v / 64 % 64 + 128 - 128)) *
          64 + (v % 64 + 128 - 128) = v by omega]
        rfl
      next notThree =>
        have lead := toNat_ofNat (n := v / 262144 % 8 + 240) (by omega)
        have second := toNat_ofNat (n := v / 4096 % 64 + 128) (by omega)
        refine (first?_four (by omega) (by omega) (by omega) (by omega) (by omega)
          (by omega)).trans ?_
        rw [lead, second, third, last, show (((v / 262144 % 8 + 240 - 240) * 64 +
          (v / 4096 % 64 + 128 - 128)) * 64 + (v / 64 % 64 + 128 - 128)) * 64 +
          (v % 64 + 128 - 128) = v by omega]
        rfl

theorem decodeFrom_skip (done : Text) (passed rest : Bytes) :
    decodeFrom passed.length done (passed ++ rest) = decodeFrom 0 done rest := by
  induction passed with
  | nil => rfl
  | cons b passed ih => exact ih

theorem decodeFrom_encodeChar (done : Text) (c : Char) (rest : Bytes) :
    decodeFrom 0 done (String.utf8EncodeChar c ++ rest) = decodeFrom 0 (.char c :: done) rest := by
  have read := first?_encodeChar c rest
  obtain ⟨b, more, bytes⟩ := List.exists_cons_of_ne_nil (String.utf8EncodeChar_ne_nil (c := c))
  rw [bytes] at read ⊢
  rw [List.cons_append, decodeFrom, ← List.cons_append, read]
  exact decodeFrom_skip _ more rest

theorem decodeFrom_encode {t : Text} (printable : t.Printable) (done : Text) :
    decodeFrom 0 done t.encode = done.reverse ++ t := by
  induction t generalizing done with
  | nil => simp [Text.encode, decodeFrom]
  | cons s t ih =>
      obtain ⟨first, others⟩ := List.forall_mem_cons.mp printable
      cases s with
      | stray b => cases first
      | char c =>
          have bytes : Text.encode (.char c :: t) = String.utf8EncodeChar c ++ Text.encode t := rfl
          rw [bytes, decodeFrom_encodeChar, ih others]
          simp

/-- A text without stray bytes is read back as it was written. -/
theorem decode_encode {t : Text} (printable : t.Printable) : decode t.encode = t := by
  rw [decode, decodeFrom_encode printable]
  rfl

end Utf8

/-- Texts without stray bytes are told apart by their bytes. -/
theorem Text.eq_of_encode_eq {t u : Text} (printable : t.Printable) (printable' : u.Printable)
    (same : t.encode = u.encode) : t = u := by
  rw [← Utf8.decode_encode printable, same, Utf8.decode_encode printable']

end Bytewise

import Bytewise.Proofs.Yaml.Folding

/-!
# What stands on the page

Written texts consist of printable ASCII and line feeds (`Yaml.OnPage`): any other character is
shown by an escape. So a document can be read at all, whatever its texts are, and it survives being
read as a text file, which would change carriage returns.
-/

namespace Bytewise.Yaml

variable {limit indent column n : Nat} {quotes : Bool} {ws us cs : List Char} {a : Char}

/-- Printable ASCII and line feeds. -/
def OnPage (ws : List Char) : Prop := ∀ c ∈ ws, c = '\n' ∨ ' ' ≤ c ∧ c ≤ '~'

instance : Decidable (OnPage ws) :=
  decidable_of_iff (ws.all (fun c => decide (c = '\n' ∨ ' ' ≤ c ∧ c ≤ '~')) = true) <| by
    simp [OnPage]

@[simp] theorem onPage_nil : OnPage [] := nofun

@[simp] theorem onPage_cons : OnPage (a :: ws) ↔ (a = '\n' ∨ ' ' ≤ a ∧ a ≤ '~') ∧ OnPage ws :=
  List.forall_mem_cons

@[simp] theorem onPage_append : OnPage (ws ++ us) ↔ OnPage ws ∧ OnPage us := List.forall_mem_append

theorem onPage_replicate (count : Nat) (page : a = '\n' ∨ ' ' ≤ a ∧ a ≤ '~') :
    OnPage (List.replicate count a) := by
  intro c member
  rw [(List.mem_replicate.mp member).2]
  exact page

@[simp] theorem onPage_newLine (k : Nat) : OnPage (newLine k) :=
  onPage_cons.mpr ⟨.inl rfl, onPage_replicate k (by decide)⟩

theorem OnPage.return_not_mem (page : OnPage ws) : '\r' ∉ ws :=
  fun member => absurd (page _ member) (by decide)

theorem OnPage.all_isAllowed (page : OnPage ws) : ws.all isAllowed = true := by
  refine List.all_eq_true.mpr fun c member => ?_
  obtain rfl | ⟨low, high⟩ := page c member
  · rfl
  · have low : 0x20 ≤ c.toNat := low
    have high : c.toNat ≤ 0x7E := high
    simp [isAllowed, low, high]

theorem onPage_of_isDigit (digits : ∀ c ∈ ws, Numeral.isDigit n c = true) : OnPage ws := by
  intro c member
  have ranges := Numeral.toNat_of_isDigit (digits c member)
  have page : 0x20 ≤ c.toNat ∧ c.toNat ≤ 0x7E := by omega
  exact .inr page

theorem onPage_decimal (z : Int) : OnPage (Numeral.decimal z) := by
  intro c member
  obtain digit | rfl := Numeral.isDigit_or_minus_of_mem_decimal member
  · exact onPage_of_isDigit (List.forall_mem_singleton.mpr digit) c List.mem_cons_self
  · decide

/-! ## Texts -/

theorem Spelt.onPage (spelt : Spelt quotes indent cs ws) : OnPage ws := by
  have space : ' ' = '\n' ∨ ' ' ≤ ' ' ∧ ' ' ≤ '~' := by decide
  induction spelt with
  | nil => exact onPage_nil
  | char ink _ _ ih => exact onPage_cons.mpr ⟨.inr ink.printable, ih⟩
  | quote _ _ ih => exact onPage_cons.mpr ⟨by decide, onPage_cons.mpr ⟨by decide, ih⟩⟩
  | spaces count _ _ ih => exact onPage_append.mpr ⟨onPage_replicate _ space, ih⟩
  | folded _ _ _ ih => exact onPage_append.mpr ⟨onPage_newLine _, ih⟩
  | breaks count _ _ ih =>
      have below := onPage_append.mpr ⟨onPage_newLine indent, ih⟩
      exact onPage_append.mpr ⟨onPage_replicate _ (.inl rfl), below⟩

theorem onPage_escapeOf (s : Symbol) : OnPage (escapeOf s) := by
  have hex (width : Nat) : OnPage ((Numeral.zeroPadded 16 width s.codePoint).map Char.toUpper) := by
    refine onPage_of_isDigit (n := 16) fun c member => ?_
    obtain ⟨d, digit, rfl⟩ := List.mem_map.mp member
    exact Numeral.isDigit_toUpper (Numeral.isDigit_of_mem_zeroPadded (by decide) (by decide) digit)
  have letter (a : Char) (page : ' ' ≤ a ∧ a ≤ '~') (width : Nat) :
      OnPage ('\\' :: a :: (Numeral.zeroPadded 16 width s.codePoint).map Char.toUpper) :=
    onPage_cons.mpr ⟨by decide, onPage_cons.mpr ⟨.inr page, hex width⟩⟩
  rw [escapeOf.eq_def]
  split
  iterate 15
    next => exact onPage_cons.mpr ⟨by decide, onPage_cons.mpr ⟨by decide, onPage_nil⟩⟩
  next =>
    split
    next => exact letter 'x' (by decide) 2
    next =>
      split
      next => exact letter 'u' (by decide) 4
      next => exact letter 'U' (by decide) 8

theorem onPage_lead (t : Text) : OnPage (lead t) := by
  rw [lead]
  split
  next => exact onPage_cons.mpr ⟨by decide, onPage_nil⟩
  next => exact onPage_nil

theorem onPage_escapeFold (cs : List Char) (column : Nat) (first fresh : Bool) :
    OnPage (escapeFold limit indent column first fresh (Text.ofChars cs)) := by
  induction cs generalizing column first fresh with
  | nil => exact onPage_nil
  | cons c cs ih =>
      have text : Text.ofChars (c :: cs) = .char c :: Text.ofChars cs := rfl
      rw [text]
      cases needs : needsEscape (.char c) with
      | true =>
          obtain ⟨column', written⟩ | written :=
            @escapeFold_of_needsEscape indent limit column first fresh (Text.ofChars cs) _ needs
          · simp [written, onPage_escapeOf, ih]
          · simp [written, onPage_escapeOf, onPage_lead, ih]
      | false =>
          have printable : ' ' ≤ c ∧ c ≤ '~' := by
            simpa [needsEscape] using (Bool.or_eq_false_iff.mp needs).2
          obtain ⟨column', written | ⟨_, written⟩⟩ :=
            @escapeFold_of_not_needsEscape c indent limit column first fresh (Text.ofChars cs) needs
          · simp [written, printable, ih]
          · simp [written, onPage_lead, printable, ih]

theorem onPage_writeText (cs : List Char) :
    OnPage (writeText limit indent column (Text.ofChars cs)) := by
  rw [writeText_ofChars]
  cases style : styleOf cs with
  | plain =>
      have foldable : Foldable cs := foldable_of_styleOf (by simp [style])
      exact (spelt_fold foldable column false).onPage
  | single =>
      have foldable : Foldable cs := foldable_of_styleOf (by simp [style])
      have spelt : Spelt true indent cs (fold true limit indent (column + 1) true cs) :=
        spelt_fold foldable (column + 1) true
      simp [spelt.onPage]
  | double => simp [onPage_escapeFold]

end Bytewise.Yaml

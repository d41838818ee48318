import Bytewise.Source.Language
import Bytewise.Text.Blank

/-!
# Markers as bytes

A language is accepted with any nonempty markers, but a file is compared with their bytes, and only
an ASCII text has bytes here. This module says exactly which languages have markers as bytes, and
what the bytes inherit from the texts: they are nonempty, and they hold a line feed only if the text
does.
-/

namespace Bytewise

/-! ## ASCII texts -/

def Text.IsAscii (t : Text) : Prop := ∀ s ∈ t, s.codePoint < 0x80

instance (t : Text) : Decidable t.IsAscii :=
  inferInstanceAs (Decidable (∀ s ∈ t, s.codePoint < 0x80))

theorem Symbol.exists_asciiByte?_iff {s : Symbol} :
    (∃ b, s.asciiByte? = some b) ↔ s.codePoint < 0x80 := by
  cases s with
  | char c => simp [asciiByte?, codePoint]
  | stray b =>
      simp only [asciiByte?, codePoint, reduceCtorEq, exists_false, false_iff]
      omega

theorem Symbol.eq_lineFeed_of_asciiByte? {s : Symbol} (byte : s.asciiByte? = some newline) :
    s = .char '\n' := by
  cases s with
  | stray b => cases byte
  | char c =>
      by_cases small : c.toNat < 0x80
      · have same : c.toNat.toUInt8 = newline := by simpa [asciiByte?, small] using byte
        have number : c.toNat = 10 := by
          have residue := congrArg UInt8.toNat same
          change c.toNat % 256 = 10 at residue
          omega
        rw [show c = '\n' from Char.toNat_inj.mp number]
      · simp [asciiByte?, small] at byte

namespace Text

variable {t : Text} {bytes : Bytes}

theorem ascii?_eq_some_iff : t.ascii? = some bytes ↔ t.map Symbol.asciiByte? = bytes.map some := by
  induction t generalizing bytes with
  | nil => cases bytes <;> simp [ascii?]
  | cons s t ih =>
      rw [ascii?] at ih ⊢
      cases first : s.asciiByte? with
      | none => cases bytes <;> simp [first]
      | some b =>
          cases others : t.mapM Symbol.asciiByte? <;> cases bytes with
          | nil => simp [first, others]
          | cons c bytes => simp [first, others, ← @ih bytes]

theorem exists_ascii?_iff : (∃ bytes, t.ascii? = some bytes) ↔ t.IsAscii := by
  simp only [ascii?_eq_some_iff, IsAscii, ← Symbol.exists_asciiByte?_iff]
  constructor
  · rintro ⟨bytes, same⟩ s member
    have byte : s.asciiByte? ∈ bytes.map some := same ▸ List.mem_map_of_mem member
    obtain ⟨b, _, found⟩ := List.mem_map.mp byte
    exact ⟨b, found.symm⟩
  · intro ascii
    refine ⟨t.filterMap Symbol.asciiByte?, ?_⟩
    induction t with
    | nil => rfl
    | cons s t ih =>
        obtain ⟨b, found⟩ := ascii s List.mem_cons_self
        have others := ih fun s member => ascii s (List.mem_cons_of_mem _ member)
        simp [found, others]

theorem ne_nil_of_ascii? (nonempty : t ≠ []) (encoded : t.ascii? = some bytes) : bytes ≠ [] := by
  rintro rfl
  exact nonempty (List.map_eq_nil_iff.mp (ascii?_eq_some_iff.mp encoded))

theorem newline_not_mem_of_ascii? (oneLine : .char '\n' ∉ t) (encoded : t.ascii? = some bytes) :
    newline ∉ bytes := by
  intro feed
  have byte : some newline ∈ t.map Symbol.asciiByte? :=
    ascii?_eq_some_iff.mp encoded ▸ List.mem_map_of_mem feed
  obtain ⟨s, member, found⟩ := List.mem_map.mp byte
  exact oneLine (Symbol.eq_lineFeed_of_asciiByte? found ▸ member)

end Text

/-! ## The markers of a language -/

structure Markers.Nonempty (m : Markers) : Prop where
  line : m.line ≠ []
  blockStart : m.blockStart ≠ []
  blockEnd : m.blockEnd ≠ []

structure Markers.OneLine (m : Markers) : Prop where
  line : newline ∉ m.line
  blockStart : newline ∉ m.blockStart
  blockEnd : newline ∉ m.blockEnd

/-- No marker that begins before these bytes reaches into them, because none holds the first of
them. -/
structure Markers.EndBefore (m : Markers) (rest : Bytes) : Prop where
  line : ∀ b ∈ rest.head?, b ∉ m.line
  blockStart : ∀ b ∈ rest.head?, b ∉ m.blockStart
  blockEnd : ∀ b ∈ rest.head?, b ∉ m.blockEnd

theorem Markers.OneLine.endBefore {m : Markers} (oneLine : m.OneLine) (rest : Bytes) :
    m.EndBefore (newline :: rest) where
  line := by
    rintro b ⟨⟩
    exact oneLine.line
  blockStart := by
    rintro b ⟨⟩
    exact oneLine.blockStart
  blockEnd := by
    rintro b ⟨⟩
    exact oneLine.blockEnd

namespace Language

structure AsciiMarkers (l : Language) : Prop where
  line : l.lineComment.IsAscii
  blockStart : l.blockStart.IsAscii
  blockEnd : l.blockEnd.IsAscii

structure OneLineMarkers (l : Language) : Prop where
  line : .char '\n' ∉ l.lineComment
  blockStart : .char '\n' ∉ l.blockStart
  blockEnd : .char '\n' ∉ l.blockEnd

variable {l : Language} {m : Markers}

theorem markers_eq_ok_iff :
    l.markers = .ok m ↔
      l.lineComment.ascii? = some m.line ∧ l.blockStart.ascii? = some m.blockStart ∧
        l.blockEnd.ascii? = some m.blockEnd := by
  obtain ⟨line, blockStart, blockEnd⟩ := m
  rw [markers]
  cases l.lineComment.ascii? with
  | none => simp
  | some _ =>
      cases l.blockStart.ascii? with
      | none => simp
      | some _ =>
          cases l.blockEnd.ascii? with
          | none => simp
          | some _ => simp

theorem exists_markers_iff : (∃ m, l.markers = .ok m) ↔ l.AsciiMarkers := by
  simp only [markers_eq_ok_iff]
  constructor
  · rintro ⟨m, line, blockStart, blockEnd⟩
    exact ⟨Text.exists_ascii?_iff.mp ⟨_, line⟩, Text.exists_ascii?_iff.mp ⟨_, blockStart⟩,
      Text.exists_ascii?_iff.mp ⟨_, blockEnd⟩⟩
  · intro ascii
    obtain ⟨line, hline⟩ := Text.exists_ascii?_iff.mpr ascii.line
    obtain ⟨blockStart, hstart⟩ := Text.exists_ascii?_iff.mpr ascii.blockStart
    obtain ⟨blockEnd, hend⟩ := Text.exists_ascii?_iff.mpr ascii.blockEnd
    exact ⟨⟨line, blockStart, blockEnd⟩, hline, hstart, hend⟩

theorem nonempty_of_markers (encoded : l.markers = .ok m) : m.Nonempty := by
  obtain ⟨line, blockStart, blockEnd⟩ := markers_eq_ok_iff.mp encoded
  exact ⟨Text.ne_nil_of_ascii? l.lineComment_ne_nil line,
    Text.ne_nil_of_ascii? l.blockStart_ne_nil blockStart,
    Text.ne_nil_of_ascii? l.blockEnd_ne_nil blockEnd⟩

theorem oneLine_of_markers (encoded : l.markers = .ok m) (oneLine : l.OneLineMarkers) :
    m.OneLine := by
  obtain ⟨line, blockStart, blockEnd⟩ := markers_eq_ok_iff.mp encoded
  exact ⟨Text.newline_not_mem_of_ascii? oneLine.line line,
    Text.newline_not_mem_of_ascii? oneLine.blockStart blockStart,
    Text.newline_not_mem_of_ascii? oneLine.blockEnd blockEnd⟩

end Language

end Bytewise

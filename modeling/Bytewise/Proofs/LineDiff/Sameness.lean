import Bytewise.Proofs.LineDiff.Hunks
import Bytewise.Proofs.Text.Lines

/-!
# Files that compare as the same

Two files are the same for a comparison if their lines have the same normal forms, in order. A
normal form drops and folds single bytes and leaves line feeds alone, so it makes no difference to
it where the lines are cut: the normal form of a file is that of its lines put together. In it a
line still ends at its line feed; only the end of a last line without one cannot be seen, because
nothing may be left of such a line. So the lines have the same normal forms exactly if the files
have the same normal form and the same number of lines (`map_normalize_cutLines_iff`).
-/

namespace Bytewise

namespace DiffOptions

variable {a b : Bytes}

theorem isInnerBlank_newline : isInnerBlank newline = false := rfl

/-- Folding case makes no line feed and loses none. -/
theorem foldByte_eq_newline_iff (b : UInt8) : foldByte b = newline ↔ b = newline := by
  rw [foldByte]
  split
  next upper =>
    -- A capital letter is no line feed, and neither is the letter it becomes.
    have bounds : 65 ≤ b.toNat ∧ b.toNat ≤ 90 := by
      simpa [UInt8.le_iff_toNat_le] using upper
    have before : b ≠ newline := by
      rintro rfl
      exact absurd bounds (by decide)
    have after : b + 0x20 ≠ newline := by
      intro folded
      have value : (b.toNat + 32) % 256 = 10 := by
        simpa [newline] using congrArg UInt8.toNat folded
      omega
    exact iff_of_false after before
  next => rfl

theorem normalize_append (o : DiffOptions) (a b : Bytes) :
    o.normalize (a ++ b) = o.normalize a ++ o.normalize b := by
  rw [normalize, normalize, normalize]
  split <;> split <;> simp

theorem normalize_nil (o : DiffOptions) : o.normalize [] = [] := by
  rw [normalize]
  split <;> split <;> rfl

theorem normalize_newline (o : DiffOptions) : o.normalize [newline] = [newline] := by
  rw [normalize]
  split <;> split <;> rfl

theorem newline_mem_normalize_iff (o : DiffOptions) :
    newline ∈ o.normalize a ↔ newline ∈ a := by
  have folded (bs : Bytes) : newline ∈ bs.map foldByte ↔ newline ∈ bs := by
    simp [foldByte_eq_newline_iff]
  have kept : newline ∈ a.filter (!isInnerBlank ·) ↔ newline ∈ a := by
    simp [isInnerBlank_newline]
  rw [normalize]
  split <;> split <;> simp [folded, kept]

theorem normalize_line (o : DiffOptions) (body rest : Bytes) :
    o.normalize (body ++ newline :: rest) = o.normalize body ++ newline :: o.normalize rest := by
  rw [normalize_append, ← List.singleton_append, normalize_append, normalize_newline]
  rfl

theorem normalize_flatten (o : DiffOptions) (lines : List Bytes) :
    o.normalize lines.flatten = (lines.map o.normalize).flatten := by
  induction lines with
  | nil => exact normalize_nil o
  | cons line lines ih =>
      rw [List.flatten_cons, normalize_append, ih, List.map_cons, List.flatten_cons]

/-! ## Line by line and as a whole -/

/-- The normal forms of the lines, put together, are that of the whole. -/
theorem flatten_map_normalize_cutLines (o : DiffOptions) (a : Bytes) :
    ((cutLines a).map o.normalize).flatten = o.normalize a := by
  rw [← normalize_flatten, flatten_cutLines]

/-- Files with as many lines and the same normal form agree line by line. -/
theorem map_normalize_cutLines (o : DiffOptions) (counts : lineCount a = lineCount b)
    (same : o.normalize a = o.normalize b) :
    (cutLines a).map o.normalize = (cutLines b).map o.normalize := by
  induction a using linesInduction generalizing b with
  | nil =>
      have none : cutLines b = [] := by
        rw [← List.length_eq_zero_iff, length_cutLines, ← counts]
        rfl
      rw [none, cutLines_nil]
  | tail body nonempty noFeed =>
      have noFeed' : newline ∉ b := by
        rwa [← newline_mem_normalize_iff o, ← same, newline_mem_normalize_iff]
      have nonempty' : b ≠ [] := by
        rintro rfl
        rw [lineCount_tail nonempty noFeed] at counts
        cases counts
      rw [cutLines_tail nonempty noFeed, cutLines_tail nonempty' noFeed', List.map_singleton,
        List.map_singleton, same]
  | line body rest noFeed ih =>
      have feed : newline ∈ b := by
        rw [← newline_mem_normalize_iff o, ← same, newline_mem_normalize_iff]
        simp
      obtain ⟨body', rest', rfl, noFeed'⟩ := List.eq_append_cons_of_mem feed
      -- Normal forms keep line feeds, so both break at their first one.
      rw [normalize_line, normalize_line, line_inj (by rwa [newline_mem_normalize_iff])
        (by rwa [newline_mem_normalize_iff])] at same
      obtain ⟨sameBody, sameRest⟩ := same
      rw [lineCount_line noFeed, lineCount_line noFeed', Nat.add_right_cancel_iff] at counts
      rw [cutLines_line noFeed, cutLines_line noFeed', List.map_cons, List.map_cons,
        normalize_append, normalize_append, sameBody, ih counts sameRest]

/-- Two files agree line by line exactly if they have as many lines and the same normal form. -/
theorem map_normalize_cutLines_iff (o : DiffOptions) :
    (cutLines a).map o.normalize = (cutLines b).map o.normalize ↔
      lineCount a = lineCount b ∧ o.normalize a = o.normalize b := by
  constructor
  · intro lines
    refine ⟨?_, ?_⟩
    · simpa [length_cutLines] using congrArg List.length lines
    · simpa only [flatten_map_normalize_cutLines] using congrArg List.flatten lines
  · rintro ⟨counts, same⟩
    exact map_normalize_cutLines o counts same

end DiffOptions

/-! ## Comparisons without hunks -/

theorem diffLines_eq_nil_iff (o : DiffOptions) (old new : List Bytes) :
    diffLines o old new = [] ↔ old.map o.normalize = new.map o.normalize := by
  constructor
  · intro none
    apply List.ext_getElem?
    intro i
    rw [List.getElem?_map, List.getElem?_map]
    refine Decidable.byContradiction fun differ => ?_
    obtain ⟨h, member, -⟩ := exists_mem_diffLines_iff.mpr (DiffOptions.differsAt_iff.mpr differ)
    rw [none] at member
    exact List.not_mem_nil member
  · intro same
    rw [List.eq_nil_iff_forall_not_mem]
    intro h member
    obtain ⟨i, -, found⟩ := mem_diffLines_iff.mp member
    have position := congrArg (·[i]?) same
    simp only [List.getElem?_map] at position
    exact (Hunk.at?_eq_some_iff.mp found).1 position

theorem Hunk.text_ne_nil (h : Hunk) : h.text ≠ [] := by
  obtain ⟨number, change⟩ := h
  cases change <;> simp [text]

namespace Comparison

theorem same_iff (c : Comparison) : c.same = true ↔ c.hunks = [] :=
  List.isEmpty_iff

theorem text_eq_nil_iff (c : Comparison) : c.text = [] ↔ c.same = true := by
  rw [same_iff, text, List.flatMap_eq_nil_iff]
  constructor
  · intro none
    rw [List.eq_nil_iff_forall_not_mem]
    intro h member
    exact h.text_ne_nil (none h member)
  · intro none
    simp [none]

theorem brief_eq_nil_iff (c : Comparison) : c.brief = [] ↔ c.same = true := by
  rw [brief]
  split
  next same => simp [same]
  next differ =>
    have begun : Text.ofString "Files " ≠ [] := by decide
    exact iff_of_false (by simp [begun]) differ

end Comparison

end Bytewise

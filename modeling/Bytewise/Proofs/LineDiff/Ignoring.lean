import Bytewise.Proofs.LineDiff.Hunks

/-!
# Ignoring more differences

The two steps of a normal form do not disturb each other: folding case makes no blanks and leaves
none out, and dropping blanks looks at each byte as it is. So normal forms under several options
come to the normal form under all of them at once (`DiffOptions.normalize_normalize`), in whatever
order they are taken.

It follows that lines with the same normal form have the same one under all options that ignore
more. A hunk can then only disappear, and those that remain are the same, since a hunk shows the
lines themselves and not their normal forms (`diffLines_ignoring_more`).
-/

namespace Bytewise

namespace DiffOptions

variable {o o' : DiffOptions}

/-- Whatever is ignored under the first options is ignored under the second ones. -/
def IgnoresLess (o o' : DiffOptions) : Prop :=
  (o.ignoreCase = true → o'.ignoreCase = true) ∧ (o.ignoreBlanks = true → o'.ignoreBlanks = true)

/-- What is ignored under one of two options. -/
def either (o o' : DiffOptions) : DiffOptions where
  ignoreCase := o.ignoreCase || o'.ignoreCase
  ignoreBlanks := o.ignoreBlanks || o'.ignoreBlanks

theorem either_self (o : DiffOptions) : o.either o = o := by
  simp [either]

theorem either_of_ignoresLess (less : o.IgnoresLess o') : o'.either o = o' := by
  obtain ⟨case, blanks⟩ := o
  obtain ⟨case', blanks'⟩ := o'
  obtain ⟨lessCase, lessBlanks⟩ := less
  cases case <;> cases blanks <;> simp_all [either]

/-! ## Bytes -/

/-- What a byte becomes when case is folded: it stays, or it is a capital letter. -/
theorem foldByte_cases (b : UInt8) :
    foldByte b = b ∨ 65 ≤ b.toNat ∧ b.toNat ≤ 90 ∧ (foldByte b).toNat = b.toNat + 32 := by
  rw [foldByte]
  split
  next upper =>
    have bounds : 65 ≤ b.toNat ∧ b.toNat ≤ 90 := by
      simpa [UInt8.le_iff_toNat_le] using upper
    refine .inr ⟨bounds.1, bounds.2, ?_⟩
    rw [UInt8.toNat_add]
    exact Nat.mod_eq_of_lt (show b.toNat + 32 < 256 by omega)
  next => exact .inl rfl

theorem isInnerBlank_iff (b : UInt8) : isInnerBlank b = true ↔ b.toNat = 32 ∨ b.toNat = 9 := by
  simp [isInnerBlank, ← UInt8.toNat_inj]

/-- Folding case makes no blanks and leaves none out. -/
theorem isInnerBlank_foldByte (b : UInt8) : isInnerBlank (foldByte b) = isInnerBlank b := by
  rw [Bool.eq_iff_iff, isInnerBlank_iff, isInnerBlank_iff]
  obtain same | ⟨least, greatest, folded⟩ := foldByte_cases b
  · rw [same]
  · omega

theorem foldByte_foldByte (b : UInt8) : foldByte (foldByte b) = foldByte b := by
  obtain same | ⟨least, greatest, folded⟩ := foldByte_cases (foldByte b)
  · exact same
  · -- A letter that was folded is no capital letter any more.
    obtain same | ⟨least', greatest', folded'⟩ := foldByte_cases b
    · rw [same, same]
    · omega

/-! ## Normal forms -/

/-- Dropping blanks and folding case can be exchanged. -/
theorem map_foldByte_filter (line : Bytes) :
    (line.filter (!isInnerBlank ·)).map foldByte =
      (line.map foldByte).filter (!isInnerBlank ·) := by
  rw [List.filter_map]
  congr 2
  funext b
  rw [Function.comp_apply, isInnerBlank_foldByte]

theorem map_foldByte_map_foldByte (line : Bytes) :
    (line.map foldByte).map foldByte = line.map foldByte := by
  rw [List.map_map]
  exact List.map_congr_left fun b _ => foldByte_foldByte b

/-- Normal forms one after the other come to one normal form. -/
theorem normalize_normalize (o o' : DiffOptions) (line : Bytes) :
    o.normalize (o'.normalize line) = (o.either o').normalize line := by
  obtain ⟨case, blanks⟩ := o
  obtain ⟨case', blanks'⟩ := o'
  cases case <;> cases blanks <;> cases case' <;> cases blanks' <;>
    simp [normalize, either, map_foldByte_map_foldByte, ← map_foldByte_filter, List.filter_filter,
      -List.map_map]

theorem normalize_idem (o : DiffOptions) (line : Bytes) :
    o.normalize (o.normalize line) = o.normalize line := by
  rw [normalize_normalize, either_self]

/-- The normal form of a line, or of a missing one, decides what it is under options that ignore
more. -/
theorem map_normalize_coarser (less : o.IgnoresLess o') (line : Option Bytes) :
    (line.map o.normalize).map o'.normalize = line.map o'.normalize := by
  rw [Option.map_map]
  congr 1
  funext line
  rw [Function.comp_apply, normalize_normalize, either_of_ignoresLess less]

end DiffOptions

/-! ## Hunks -/

open DiffOptions

variable {o o' : DiffOptions}

/-- Do the sides of a hunk differ under these options? A side that is missing differs from any line.
-/
def Hunk.shownUnder (h : Hunk) (o : DiffOptions) : Bool :=
  h.change.old?.map o.normalize != h.change.new?.map o.normalize

/-- Under options that ignore more, the hunk of a position stays as it is or disappears. -/
theorem Hunk.at?_of_ignoresLess (less : o.IgnoresLess o') (number : Nat) (a b : Option Bytes) :
    Hunk.at? o' number a b = (Hunk.at? o number a b).filter (·.shownUnder o') := by
  have differ (differ' : a.map o'.normalize ≠ b.map o'.normalize) :
      a.map o.normalize ≠ b.map o.normalize := by
    intro same
    rw [← map_normalize_coarser less a, ← map_normalize_coarser less b, same] at differ'
    exact differ' rfl
  apply Option.ext
  intro h
  rw [Option.filter_eq_some_iff, Hunk.at?_eq_some_iff, Hunk.at?_eq_some_iff]
  constructor
  · rintro ⟨differ', number, rfl, rfl⟩
    exact ⟨⟨differ differ', number, rfl, rfl⟩, by simpa [Hunk.shownUnder] using differ'⟩
  · rintro ⟨⟨-, number, rfl, rfl⟩, shown⟩
    exact ⟨by simpa [Hunk.shownUnder] using shown, number, rfl, rfl⟩

/-- Under options that ignore more, the hunks are those whose sides still differ. -/
theorem diffLines_eq_filter (less : o.IgnoresLess o') (old new : List Bytes) :
    diffLines o' old new = (diffLines o old new).filter (·.shownUnder o') := by
  rw [diffLines_eq, diffLines_eq, List.filter_filterMap]
  simp only [Hunk.at?_of_ignoresLess less]

/-- Options that ignore more never show more: the hunks are the old ones, some of them left out,
namely those whose sides have the same normal form now. Taking the normal form twice changes
nothing, and it makes no difference whether blanks are dropped or case is folded first. -/
theorem diffLines_ignoring_more (less : o.IgnoresLess o') (old new : List Bytes) :
    (diffLines o' old new).Sublist (diffLines o old new) ∧
      diffLines o' old new = (diffLines o old new).filter (·.shownUnder o') ∧
      (∀ line, o.normalize (o.normalize line) = o.normalize line) ∧
      ∀ line : Bytes, (line.filter (!isInnerBlank ·)).map foldByte =
        (line.map foldByte).filter (!isInnerBlank ·) := by
  have filtered := diffLines_eq_filter less old new
  refine ⟨?_, filtered, normalize_idem o, map_foldByte_filter⟩
  rw [filtered]
  exact List.filter_sublist

/-- The second lines differ in case only, and with case ignored their hunk disappears. -/
theorem diffLines_ignoring_more_case :
    let old : List Bytes := [[0x61, 0x0A], [0x62, 0x0A], [0x63]]
    let new : List Bytes := [[0x78, 0x0A], [0x42, 0x0A]]
    let caseless : DiffOptions := ⟨true, false⟩
    ({} : DiffOptions).IgnoresLess caseless ∧
      (diffLines {} old new).map Hunk.number = [1, 2, 3] ∧
      (diffLines caseless old new).map Hunk.number = [1, 3] ∧
      (diffLines caseless old new).Sublist (diffLines {} old new) := by
  intro old new caseless
  have less : ({} : DiffOptions).IgnoresLess caseless := ⟨nofun, nofun⟩
  exact ⟨less, by cbv, by cbv, (diffLines_ignoring_more less old new).1⟩

end Bytewise

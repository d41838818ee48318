import Bytewise.Package.Patterns
import Bytewise.Path

/-!
# The last line that applies

Packages for ignore patterns differ in what their lines say, and so in which lines apply to which
paths. What they share is how lines decide: the last one that applies to a path ignores it, unless
it is a negation, which takes the path back (`PatternPackage.DecidesBy`).

A line that is added and is no negation can therefore only overrule the lines before it towards
ignoring (`ignored_of_added`). A directory is known by two paths, with and without a slash behind
its name. Where a line that applies to the path also applies to the one with the slash
(`KeptBySlash`), the two can only be decided differently by a negation that applies to the path with
the slash alone (`takenBackInVain_iff`). A name that ends in a line feed is an exception, because a
line feed at the end of a path may count as its end, and in front of a slash it does not.
-/

namespace Bytewise

/-- Is a line meant to take paths back? -/
def IsNegation (line : Text) : Prop := line.head? = some (.char '!')

def NoFeedLast (t : Text) : Prop := t.getLast? ≠ some (.char '\n')

theorem NoFeedLast.tail {s : Symbol} {t : Text} (noFeed : NoFeedLast (s :: t)) : NoFeedLast t := by
  cases t with
  | nil => exact nofun
  | cons s t => exact noFeed

def LastLine (applies : Text → Text → Prop) (values : List Value) (path line : Text) : Prop :=
  ∃ before after, values = before ++ .text line :: after ∧ applies line path ∧
    ∀ later, .text later ∈ after → ¬ applies later path

/-- The paths that a package ignores are those whose last line is no negation. -/
def PatternPackage.DecidesBy (package : PatternPackage) (applies : Text → Text → Prop) : Prop :=
  ∀ values ignores, package.compile values = .ok ignores → ∀ path,
    ignores path = true ↔ ∃ line, LastLine applies values path line ∧ ¬ IsNegation line

/-- A line that applies to a path applies to the path with a slash behind it. -/
def KeptBySlash (applies : Text → Text → Prop) : Prop :=
  ∀ line path, applies line path → path ≠ [] → path ≠ [.char '.'] → NoFeedLast path →
    applies line (path ++ [Path.slash])

section

variable {applies : Text → Text → Prop} {values rest added : List Value} {v : Value}
  {path line line' : Text}

/-! ## One last line -/

/-- The last line is among the others, or it stands first and none of the others applies. -/
theorem lastLine_cons_iff : LastLine applies (v :: rest) path line ↔
    LastLine applies rest path line ∨ v = .text line ∧ applies line path ∧
      ∀ later, .text later ∈ rest → ¬ applies later path := by
  constructor
  · rintro ⟨before, after, parts, holds, last⟩
    cases before with
    | nil =>
        cases parts
        exact .inr ⟨rfl, holds, last⟩
    | cons first before =>
        cases parts
        exact .inl ⟨before, after, rfl, holds, last⟩
  · rintro (⟨before, after, rfl, holds, last⟩ | ⟨rfl, holds, last⟩)
    · exact ⟨v :: before, after, rfl, holds, last⟩
    · exact ⟨[], rest, rfl, holds, last⟩

theorem not_lastLine_nil : ¬ LastLine applies [] path line := by
  rintro ⟨before, after, parts, -⟩
  exact absurd parts (by simp)

theorem LastLine.mem_and_applies (last : LastLine applies values path line) :
    .text line ∈ values ∧ applies line path := by
  obtain ⟨before, after, rfl, holds, -⟩ := last
  exact ⟨by simp, holds⟩

theorem exists_lastLine (some : ∃ line, .text line ∈ values ∧ applies line path) :
    ∃ line, LastLine applies values path line := by
  induction values with
  | nil =>
      obtain ⟨line, member, -⟩ := some
      cases member
  | cons v rest ih =>
      by_cases later : ∃ line, .text line ∈ rest ∧ applies line path
      case pos =>
        obtain ⟨line, last⟩ := ih later
        exact ⟨line, lastLine_cons_iff.mpr (.inl last)⟩
      case neg =>
        have none : ∀ line, .text line ∈ rest → ¬ applies line path :=
          fun line member holds => later ⟨line, member, holds⟩
        obtain ⟨line, member, holds⟩ := some
        obtain here | member := List.mem_cons.mp member
        · exact ⟨line, lastLine_cons_iff.mpr (.inr ⟨here.symm, holds, none⟩)⟩
        · exact absurd holds (none line member)

theorem LastLine.unique (last : LastLine applies values path line)
    (last' : LastLine applies values path line') : line = line' := by
  induction values with
  | nil => exact (not_lastLine_nil last).elim
  | cons v rest ih =>
      rw [lastLine_cons_iff] at last last'
      obtain last | ⟨rfl, -, none⟩ := last
      · obtain last' | ⟨-, -, none⟩ := last'
        · exact ih last last'
        · exact absurd last.mem_and_applies.2 (none _ last.mem_and_applies.1)
      · obtain last' | ⟨same, -, -⟩ := last'
        · exact absurd last'.mem_and_applies.2 (none _ last'.mem_and_applies.1)
        · exact Value.text.inj same

/-! ## Lines that are added -/

/-- No value is a line that takes paths back. -/
def NegationFree (values : List Value) : Prop := ∀ line, .text line ∈ values → ¬ IsNegation line

/-- The last line is among those that were added, unless none of them applies. -/
theorem LastLine.exists_append (last : LastLine applies values path line) (added : List Value) :
    (∃ line', .text line' ∈ added ∧ LastLine applies (values ++ added) path line') ∨
      LastLine applies (values ++ added) path line := by
  obtain ⟨before, after, rfl, holds, none⟩ := last
  by_cases later : ∃ line, .text line ∈ added ∧ applies line path
  case pos =>
    obtain ⟨line', start, rest, rfl, holds', none'⟩ := exists_lastLine later
    exact .inl
      ⟨line', by simp, before ++ .text line :: after ++ start, rest, by simp, holds', none'⟩
  case neg =>
    refine .inr ⟨before, after ++ added, by simp, holds, fun other member holds' => ?_⟩
    obtain member | member := List.mem_append.mp member
    · exact none other member holds'
    · exact later ⟨other, member, holds'⟩

/-- Lines with others added, none of them a negation, ignore what the lines ignore. -/
theorem ignored_of_added (plain : NegationFree added)
    (ignored : ∃ line, LastLine applies values path line ∧ ¬ IsNegation line) :
    ∃ line, LastLine applies (values ++ added) path line ∧ ¬ IsNegation line := by
  obtain ⟨line, last, kept⟩ := ignored
  obtain ⟨line', member, last'⟩ | last' := last.exists_append added
  · exact ⟨line', last', plain line' member⟩
  · exact ⟨line, last', kept⟩

/-! ## The two paths of a directory -/

/-- A directory is excluded as a path, although the last line that applies to it as a directory
takes it back, or none applies to it so. -/
def TakenBackInVain (applies : Text → Text → Prop) (values : List Value) (path : Text) : Prop :=
  (∃ line, LastLine applies values path line ∧ ¬ IsNegation line) ∧
    ∀ line, LastLine applies values (path ++ [Path.slash]) line → IsNegation line

/-- A line excludes a directory as a path, and the last line that applies to it as a directory is a
negation further on, which does not apply to it as a path. -/
def NegatedBehind (applies : Text → Text → Prop) (values : List Value) (path : Text) : Prop :=
  ∃ before line between negation after,
    values = before ++ .text line :: (between ++ .text negation :: after) ∧
      ¬ IsNegation line ∧ applies line path ∧
      (∀ other, .text other ∈ between → ¬ applies other path) ∧
      IsNegation negation ∧ applies negation (path ++ [Path.slash]) ∧
      ¬ applies negation path ∧
      ∀ other, .text other ∈ after → ¬ applies other (path ++ [Path.slash])

/-- Unless its name ends in a line feed, a directory can only be taken back in vain by a negation
that applies to directories alone. -/
theorem takenBackInVain_iff (kept : KeptBySlash applies) (nonempty : path ≠ [])
    (named : path ≠ [.char '.']) (noFeed : NoFeedLast path) :
    TakenBackInVain applies values path ↔ NegatedBehind applies values path := by
  constructor
  · rintro ⟨⟨line, ⟨before, after, rfl, holds, none⟩, plain⟩, negations⟩
    by_cases later : ∃ other, .text other ∈ after ∧ applies other (path ++ [Path.slash])
    case neg =>
      have last : LastLine applies (before ++ .text line :: after) (path ++ [Path.slash]) line :=
        ⟨before, after, rfl, kept line path holds nonempty named noFeed,
          fun other member holds => later ⟨other, member, holds⟩⟩
      exact absurd (negations line last) plain
    case pos =>
      obtain ⟨negation, between, after, rfl, holds', none'⟩ := exists_lastLine later
      have last : LastLine applies (before ++ .text line :: (between ++ .text negation :: after))
          (path ++ [Path.slash]) negation :=
        ⟨before ++ .text line :: between, after, by simp, holds', none'⟩
      exact ⟨before, line, between, negation, after, rfl, plain, holds,
        fun other member => none other (by simp [member]), negations negation last, holds',
        none negation (by simp), none'⟩
  · rintro ⟨before, line, between, negation, after, rfl, plain, holds, none, isNegation, holds',
      silent, none'⟩
    refine ⟨⟨line, ⟨before, _, rfl, holds, ?_⟩, plain⟩, fun other last => ?_⟩
    · intro other member applied
      obtain member | member := List.mem_append.mp member
      · exact none other member applied
      · obtain same | member := List.mem_cons.mp member
        · cases same
          exact silent applied
        · exact none' other member (kept other path applied nonempty named noFeed)
    · have last' : LastLine applies (before ++ .text line :: (between ++ .text negation :: after))
          (path ++ [Path.slash]) negation :=
        ⟨before ++ .text line :: between, after, by simp, holds', none'⟩
      exact last.unique last' ▸ isNegation

end

end Bytewise

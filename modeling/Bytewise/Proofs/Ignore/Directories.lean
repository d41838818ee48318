import Bytewise.Package.Standard
import Bytewise.Proofs.Ignore.Rules

/-!
# Patterns and directories

A directory is known by two paths, with and without a slash behind its name. A pattern that applies
to the path without the slash also applies to the one with it (`Pattern.LineApplies.concat_slash`):
each atom that matched still does, and where the pattern asks for the end of the path the slash will
do. The one exception is a name that ends in a line feed, because a line feed at the end of a path
counts as its end, and in front of a slash it does not.

A list of patterns decides a path by the last of its lines that applies
(`PatternPackage.standard_decidesBy`).
-/

namespace Bytewise

/-! ## A slash behind a path -/

namespace Atom

variable {rest : Text → Bool} {t : Text} {as : List Atom}

/-- Whoever takes a text takes it with a slash behind it, too. -/
def AllowsSlash (rest : Text → Bool) : Prop :=
  ∀ t, NoFeedLast t → rest t = true → rest (t ++ [Path.slash]) = true

theorem allowsSlash_afterMany (allows : AllowsSlash rest) : AllowsSlash (afterMany rest) := by
  intro t noFeed matched
  induction t with
  | nil =>
      have here := allows [] nofun matched
      rw [List.nil_append] at here ⊢
      rw [afterMany, here, Bool.true_or]
  | cons s t ih =>
      simp only [List.cons_append, afterMany, Bool.or_eq_true, Bool.and_eq_true] at matched ⊢
      obtain here | ⟨plain, later⟩ := matched
      · exact .inl (allows (s :: t) noFeed here)
      · exact .inr ⟨plain, ih noFeed.tail later⟩

theorem allowsSlash_afterSlash (allows : AllowsSlash rest) (first : Bool) :
    AllowsSlash (afterSlash rest first) := by
  intro t noFeed matched
  induction t generalizing first with
  | nil => cases matched
  | cons s t ih =>
      simp only [List.cons_append, afterSlash, Bool.or_eq_true, Bool.and_eq_true] at matched ⊢
      obtain ⟨here, after⟩ | ⟨plain, later⟩ := matched
      · exact .inl ⟨here, allows t noFeed.tail after⟩
      · exact .inr ⟨plain, ih false noFeed.tail later⟩

theorem allowsSlash_afterSome (allows : AllowsSlash rest) : AllowsSlash (afterSome rest) := by
  intro t noFeed matched
  induction t with
  | nil => cases matched
  | cons s t ih =>
      simp only [List.cons_append, afterSome, Bool.or_eq_true, Bool.and_eq_true] at matched ⊢
      obtain ⟨plain, here | later⟩ := matched
      · exact ⟨plain, .inl (allows t noFeed.tail here)⟩
      · exact ⟨plain, .inr (ih noFeed.tail later)⟩

/-- One atom more changes nothing about that. -/
theorem allowsSlash_matchThen (allows : AllowsSlash rest) (a : Atom) :
    AllowsSlash (matchThen rest a) := by
  intro t noFeed matched
  cases a with
  | many => exact allowsSlash_afterMany allows t noFeed matched
  | leadingDirectories =>
      rw [matchThen, Bool.or_eq_true] at matched ⊢
      exact matched.imp (allows t noFeed) (allowsSlash_afterSlash allows true t noFeed)
  | innerDirectories =>
      cases t with
      | nil =>
          have here := allows [] noFeed matched
          rw [List.nil_append] at here ⊢
          rw [matchThen, here, Bool.true_or]
      | cons s t =>
          simp only [List.cons_append, matchThen, Bool.or_eq_true, Bool.and_eq_true] at matched ⊢
          obtain here | ⟨slash, later⟩ := matched
          · exact .inl (allows (s :: t) noFeed here)
          · exact .inr ⟨slash, allowsSlash_afterSome allows t noFeed.tail later⟩
  | boundary =>
      cases t with
      | nil =>
          -- The end of the path was asked for, and now there is the slash.
          have here : rest [] = true := matched
          simp [matchThen, isSlash, here]
      | cons s t =>
          simp only [List.cons_append, matchThen, Bool.or_eq_true, Bool.and_eq_true] at matched ⊢
          obtain ⟨slash, later⟩ | ⟨⟨feed, last⟩, -⟩ := matched
          · exact .inl ⟨slash, allows t noFeed.tail later⟩
          · obtain rfl := List.isEmpty_iff.mp last
            exact absurd (congrArg some (eq_of_beq feed)) noFeed
  | symbol | one | oneOf =>
      cases t with
      | nil => cases matched
      | cons s t =>
          simp only [List.cons_append, matchThen, Bool.and_eq_true] at matched ⊢
          exact ⟨matched.1, allows t noFeed.tail matched.2⟩

theorem allowsSlash_matchAll (as : List Atom) : AllowsSlash (matchAll as) := by
  induction as with
  | nil => exact fun t _ _ => by rw [matchAll]
  | cons a as ih => exact allowsSlash_matchThen ih a

end Atom

theorem Scope.holds_concat_slash {t : Text} (scope : Scope) (noFeed : NoFeedLast t)
    (holds : scope.holds t = true) : scope.holds (t ++ [Path.slash]) = true := by
  cases scope with
  | everything =>
      rw [Scope.holds, List.any_append]
      exact Bool.or_eq_true_iff.mpr (.inl holds)
  | nested =>
      rw [Scope.holds, List.any_append]
      exact Bool.or_eq_true_iff.mpr (.inl holds)
  | matching atoms => exact Atom.allowsSlash_matchAll atoms t noFeed holds

/-! ## Paths as the rules see them -/

namespace IgnoreRules

variable {path : Text}

/-- A backslash as a slash, any other symbol as it is. -/
def plainSymbol (s : Symbol) : Symbol := if s = .char '\\' then Path.slash else s

theorem plainSymbol_eq_iff {s c : Symbol} (other : c ≠ .char '\\' ∧ c ≠ Path.slash) :
    plainSymbol s = c ↔ s = c := by
  rw [plainSymbol]
  split
  next escape => simp [escape, other.1.symm, other.2.symm]
  next => rfl

/-- A path without the one slash or `./` at its beginning that does not count. -/
def dropRoot : Text → Text
  | .char '/' :: rest => rest
  | .char '.' :: .char '/' :: rest => rest
  | path => path

theorem normalPath_eq (path : Text) : normalPath path = dropRoot (path.map plainSymbol) := rfl

/-- Behind a path that is neither empty nor a dot, a slash makes no beginning of that kind. -/
theorem dropRoot_concat_slash (nonempty : path ≠ []) (named : path ≠ [.char '.']) :
    dropRoot (path ++ [Path.slash]) = dropRoot path ++ [Path.slash] := by
  fun_cases dropRoot path with
  | case1 rest => rfl
  | case2 rest => rfl
  | case3 _ noSlash noDot =>
      obtain ⟨c, rest, rfl⟩ := List.exists_cons_of_ne_nil nonempty
      rw [dropRoot]
      · rintro other same
        cases same
        exact noSlash rest rfl
      · rintro other same
        cases rest with
        | nil =>
            cases same
            exact named rfl
        | cons d rest =>
            cases same
            exact noDot rest rfl

theorem noFeedLast_dropRoot (noFeed : NoFeedLast path) : NoFeedLast (dropRoot path) := by
  fun_cases dropRoot path with
  | case1 rest => exact noFeed.tail
  | case2 rest => exact noFeed.tail.tail
  | case3 => exact noFeed

/-- A path that is neither empty nor a dot is seen alike with a slash behind it. -/
theorem normalPath_concat_slash (nonempty : path ≠ []) (named : path ≠ [.char '.']) :
    normalPath (path ++ [Path.slash]) = normalPath path ++ [Path.slash] := by
  rw [normalPath_eq, normalPath_eq, List.map_append]
  refine dropRoot_concat_slash (by simpa using nonempty) ?_
  intro dot
  obtain ⟨s, rfl, plain⟩ := List.map_eq_singleton_iff.mp dot
  exact named (by rw [(plainSymbol_eq_iff (by decide)).mp plain])

theorem noFeedLast_normalPath (noFeed : NoFeedLast path) : NoFeedLast (normalPath path) := by
  rw [normalPath_eq]
  apply noFeedLast_dropRoot
  rw [NoFeedLast, List.getLast?_map, ne_eq, Option.map_eq_some_iff]
  rintro ⟨s, last, feed⟩
  rw [plainSymbol_eq_iff (by decide)] at feed
  exact noFeed (feed ▸ last)

end IgnoreRules

/-! ## The last line that applies -/

namespace Pattern

def LineApplies (line path : Text) : Prop :=
  ∃ p, parse line = .ok (some p) ∧ p.scope.holds (IgnoreRules.normalPath path) = true

variable {line path : Text} {p : Pattern}

theorem lineApplies_iff (read : parse line = .ok (some p)) :
    LineApplies line path ↔ p.scope.holds (IgnoreRules.normalPath path) = true := by
  constructor
  · rintro ⟨p', read', holds⟩
    cases read.symm.trans read'
    exact holds
  · exact fun holds => ⟨p, read, holds⟩

theorem not_lineApplies_of_silent (silent : parse line = .ok none) : ¬ LineApplies line path := by
  rintro ⟨p, read, -⟩
  cases silent.symm.trans read

theorem lineApplies_iff_evaluates : LineApplies line path ↔
    (parse line).toOption.join.any (·.scope.holds (IgnoreRules.normalPath path)) = true := by
  cases read : parse line with
  | error fault =>
      refine iff_of_false ?_ nofun
      rintro ⟨p, read', -⟩
      cases read.symm.trans read'
  | ok pattern =>
      cases pattern with
      | none => exact iff_of_false (not_lineApplies_of_silent read) nofun
      | some p => exact lineApplies_iff read

instance (line path : Text) : Decidable (LineApplies line path) :=
  decidable_of_iff _ lineApplies_iff_evaluates.symm

/-- A line that applies to a path applies to the path with a slash behind it. -/
theorem LineApplies.concat_slash (applies : LineApplies line path) (nonempty : path ≠ [])
    (named : path ≠ [.char '.']) (noFeed : NoFeedLast path) :
    LineApplies line (path ++ [Path.slash]) := by
  obtain ⟨p, read, holds⟩ := applies
  refine ⟨p, read, ?_⟩
  rw [IgnoreRules.normalPath_concat_slash nonempty named]
  exact p.scope.holds_concat_slash (IgnoreRules.noFeedLast_normalPath noFeed) holds

end Pattern

namespace IgnoreRules

open Pattern

variable {values rest : List Value} {v : Value} {line : Text} {rules : IgnoreRules}

/-- Something that is no line that applies leaves the last line as it is. -/
theorem lastLine_cons_of_silent (silent : ∀ line, v = .text line → ¬ LineApplies line path) :
    LastLine LineApplies (v :: rest) path line ↔ LastLine LineApplies rest path line := by
  rw [lastLine_cons_iff, or_iff_left]
  rintro ⟨here, applies, -⟩
  exact silent line here applies

theorem not_lineApplies_of_falsy (falsy : v.truthy = false) :
    ∀ line, v = .text line → ¬ LineApplies line path := by
  rintro line rfl
  have empty : line = [] := by simpa [Value.truthy] using falsy
  exact not_lineApplies_of_silent (by rw [empty]; rfl)

/-- Some rule applies exactly if some line does. -/
theorem Reads.any_holds_iff (reads : Reads values rules) :
    rules.any (·.scope.holds (normalPath path)) = true ↔
      ∃ line, .text line ∈ values ∧ LineApplies line path := by
  induction reads with
  | nil => simp
  | @empty v rest rules falsy _ ih =>
      have silent : ∀ line, Value.text line = v → ¬ LineApplies line path := fun line same =>
        not_lineApplies_of_falsy falsy line same.symm
      rw [ih]
      simp only [List.mem_cons, or_and_right, exists_or]
      exact (or_iff_right fun ⟨line, same, applies⟩ => silent line same applies).symm
  | @silent line rest rules _ none _ ih =>
      rw [ih]
      simp [not_lineApplies_of_silent none, or_and_right, exists_or]
  | @pattern line p rest rules _ read _ ih =>
      rw [List.any_cons, Bool.or_eq_true, ih, ← lineApplies_iff read]
      simp [or_and_right, exists_or]

theorem ignoresPath_cons (p : Pattern) (rules : IgnoreRules) (path : Text) :
    ignoresPath (p :: rules) path =
      if rules.any (·.scope.holds (normalPath path)) then ignoresPath rules path
      else p.scope.holds (normalPath path) && p.ignores := by
  rw [ignoresPath, ignoresPath, List.reverse_cons, List.find?_append]
  cases found : rules.reverse.find? (·.scope.holds (normalPath path)) with
  | some q =>
      have member : q ∈ rules := List.mem_reverse.mp (List.mem_of_find?_eq_some found)
      have applies : rules.any (·.scope.holds (normalPath path)) = true :=
        List.any_eq_true.mpr ⟨q, member, by simpa using List.find?_some found⟩
      rw [Option.some_or, applies, if_pos rfl]
  | none =>
      have silent : rules.any (·.scope.holds (normalPath path)) = false := by
        simpa using found
      rw [Option.none_or, silent]
      cases holds : p.scope.holds (normalPath path) <;> simp [holds]

/-- A path is ignored exactly if the last line that applies to it is no negation. -/
theorem Reads.ignoresPath_iff (reads : Reads values rules) :
    ignoresPath rules path = true ↔
      ∃ line, LastLine LineApplies values path line ∧ ¬ IsNegation line := by
  induction reads with
  | nil =>
      refine iff_of_false Bool.false_ne_true ?_
      rintro ⟨line, last, -⟩
      cases last.mem_and_applies.1
  | empty falsy _ ih =>
      simp only [ih, lastLine_cons_of_silent (not_lineApplies_of_falsy falsy)]
  | @silent first _ _ _ none _ ih =>
      have silent : ∀ line, Value.text first = .text line → ¬ LineApplies line path := by
        rintro line same
        cases same
        exact not_lineApplies_of_silent none
      simp only [ih, lastLine_cons_of_silent silent]
  | @pattern first p rest rules _ read others ih =>
      rw [ignoresPath_cons]
      split
      next some =>
        -- What is decided among the lines behind the first one stays decided.
        have later := others.any_holds_iff.mp some
        rw [ih]
        refine exists_congr fun line => and_congr_left' ?_
        rw [lastLine_cons_iff, or_iff_left]
        rintro ⟨-, -, none⟩
        obtain ⟨line, member, applies⟩ := later
        exact none line member applies
      next silent =>
        have none : ∀ line, .text line ∈ rest → ¬ LineApplies line path :=
          fun line member applies => silent (others.any_holds_iff.mpr ⟨line, member, applies⟩)
        have alone (line : Text) : LastLine LineApplies (.text first :: rest) path line ↔
            first = line ∧ LineApplies first path := by
          rw [lastLine_cons_iff, Value.text.injEq, or_iff_right]
          · constructor
            · rintro ⟨rfl, applies, -⟩
              exact ⟨rfl, applies⟩
            · rintro ⟨rfl, applies⟩
              exact ⟨rfl, applies, none⟩
          · exact fun last => none line last.mem_and_applies.1 last.mem_and_applies.2
        rw [Bool.and_eq_true, ← lineApplies_iff read, ignores_iff read]
        simp only [alone]
        constructor
        · rintro ⟨applies, plain⟩
          exact ⟨first, ⟨rfl, applies⟩, plain⟩
        · rintro ⟨line, ⟨rfl, applies⟩, plain⟩
          exact ⟨applies, plain⟩

end IgnoreRules

/-! ## The package -/

theorem PatternPackage.standard_decidesBy :
    PatternPackage.standard.DecidesBy Pattern.LineApplies := by
  intro values ignores accepted path
  cases read : IgnoreRules.ofValues values with
  | error fault =>
      simp only [standard, read, Functor.map, Except.map] at accepted
      cases accepted
  | ok rules =>
      simp only [standard, read, Functor.map, Except.map, Except.ok.injEq] at accepted
      rw [← accepted]
      exact (IgnoreRules.reads_of_ofValues read).ignoresPath_iff

theorem Pattern.keptBySlash_lineApplies : KeptBySlash LineApplies :=
  fun _ _ applies nonempty named noFeed => applies.concat_slash nonempty named noFeed

end Bytewise

import Bytewise.Path

/-!
# Globs

A glob is what stands between two slashes of an ignore pattern. It is read into atoms, and a list of
atoms is matched against the beginning of a path. Besides the wildcards of a glob there are atoms
for whole directories, which the doubled star of a pattern is turned into.

The matcher of a list of atoms is built from right to left: an atom that can match in several ways
tries the rest of the list after each of them.
-/

namespace Bytewise

inductive Atom where
  /-- Exactly this symbol. -/
  | symbol (s : Symbol)
  /-- Any one symbol but a slash. -/
  | one
  /-- Any number of symbols but slashes. -/
  | many
  /-- One symbol inside the ranges, or outside them all. -/
  | oneOf (negated : Bool) (ranges : List (Symbol × Symbol))
  /-- Nothing, or any directories with the slash behind them. -/
  | leadingDirectories
  /-- Nothing, or any directories with the slash before them. -/
  | innerDirectories
  /-- The end of the path, or a slash. -/
  | boundary
  deriving DecidableEq, Repr

namespace Atom

def isSlash (s : Symbol) : Bool := s == Path.slash

/-- A line feed ends the reach of whole-directory matches, and at the end of a path it does not
count. -/
def isLineFeed (s : Symbol) : Bool := s == .char '\n'

def inRanges (ranges : List (Symbol × Symbol)) (s : Symbol) : Bool :=
  ranges.any fun (low, high) => low.codePoint ≤ s.codePoint && s.codePoint ≤ high.codePoint

/-- Does the rest match after some symbols that are no slashes? -/
def afterMany (rest : Text → Bool) : Text → Bool
  | [] => rest []
  | s :: t => rest (s :: t) || (!isSlash s && afterMany rest t)

/-- Does the rest match after a slash further on? The number of symbols before the slash is at least
one if `first` says that none was passed yet. -/
def afterSlash (rest : Text → Bool) (first : Bool) : Text → Bool
  | [] => false
  | s :: t =>
    (!first && isSlash s && rest t) || (!isLineFeed s && afterSlash rest false t)

/-- Does the rest match after one or more symbols? -/
def afterSome (rest : Text → Bool) : Text → Bool
  | [] => false
  | s :: t => !isLineFeed s && (rest t || afterSome rest t)

/-- Match one atom, and the rest after it. -/
def matchThen (rest : Text → Bool) (a : Atom) (t : Text) : Bool :=
  match a, t with
  | .symbol s, c :: t => s = c && rest t
  | .one, c :: t => !isSlash c && rest t
  | .oneOf negated ranges, c :: t => (inRanges ranges c != negated) && rest t
  | .many, t => afterMany rest t
  | .leadingDirectories, t => rest t || afterSlash rest true t
  | .innerDirectories, c :: t => rest (c :: t) || (isSlash c && afterSome rest t)
  | .innerDirectories, [] => rest []
  | .boundary, [] => rest []
  | .boundary, c :: t => (isSlash c && rest t) || (isLineFeed c && t.isEmpty && rest (c :: t))
  | _, [] => false

def matchAll : List Atom → Text → Bool
  | [], _ => true
  | a :: as, t => matchThen (matchAll as) a t

end Atom

namespace Glob

/-- Why a glob has no atoms. -/
inductive Defect where
  | openBracket
  | danglingEscape
  deriving DecidableEq, Repr

/-- The symbols up to a closing bracket, and what follows it. -/
def untilClosed : Text → Option (Text × Text)
  | [] => none
  | s :: t =>
    if s = .char ']' then some ([], t)
    else (untilClosed t).map fun (m, r) => (s :: m, r)

/-- The symbols of a bracket and what follows its end; a closing bracket in first place is an
ordinary symbol. -/
def members? : Text → Option (Text × Text)
  | [] => none
  | s :: t => (untilClosed t).map fun (m, r) => (s :: m, r)

/-- Read what follows an opening bracket: is it negated, its symbols, and what follows its end. -/
def bracket? (t : Text) : Option (Bool × Text × Text) :=
  match t with
  | .char '!' :: rest => (members? rest).map (true, ·)
  | .char '^' :: rest => (members? rest).map (true, ·)
  | rest => (members? rest).map (false, ·)

/-- The ranges of a bracket: a hyphen between two symbols spans from one to the other. -/
def ranges : Text → List (Symbol × Symbol)
  | [] => []
  | a :: .char '-' :: b :: rest => (a, b) :: ranges rest
  | a :: rest => (a, a) :: ranges rest

theorem untilClosed_length {t m r : Text} (h : untilClosed t = some (m, r)) :
    r.length < t.length := by
  induction t generalizing m with
  | nil => simp [untilClosed] at h
  | cons s t ih =>
    rw [untilClosed] at h
    split at h
    · obtain ⟨-, rfl⟩ : _ ∧ _ := by simpa using h
      simp
    · obtain ⟨⟨m', r'⟩, hm, h⟩ := Option.map_eq_some_iff.mp h
      obtain ⟨-, rfl⟩ : _ ∧ _ := by simpa using h
      exact Nat.lt_succ_of_lt (ih hm)

theorem members?_length {t m r : Text} (h : members? t = some (m, r)) : r.length < t.length := by
  cases t with
  | nil => simp [members?] at h
  | cons s t =>
    obtain ⟨⟨m', r'⟩, hm, h⟩ := Option.map_eq_some_iff.mp h
    obtain ⟨-, rfl⟩ : _ ∧ _ := by simpa using h
    exact Nat.lt_succ_of_lt (untilClosed_length hm)

theorem bracket?_length {t m r : Text} {n : Bool} (h : bracket? t = some (n, m, r)) :
    r.length < t.length := by
  unfold bracket? at h
  split at h
  all_goals
    obtain ⟨⟨m', r'⟩, hm, h⟩ := Option.map_eq_some_iff.mp h
    obtain ⟨-, -, rfl⟩ : _ ∧ _ ∧ _ := by simpa using h
    have := members?_length hm
    grind

def parse (t : Text) : Except Defect (List Atom) :=
  match t with
  | [] => .ok []
  | .char '\\' :: [] => .error .danglingEscape
  | .char '\\' :: s :: rest => (.symbol s :: ·) <$> parse rest
  | .char '*' :: rest => (.many :: ·) <$> parse rest
  | .char '?' :: rest => (.one :: ·) <$> parse rest
  | .char '[' :: rest =>
    match h : bracket? rest with
    | none => .error .openBracket
    | some (negated, members, after) =>
      have := bracket?_length h
      (.oneOf negated (ranges members) :: ·) <$> parse after
  | s :: rest => (.symbol s :: ·) <$> parse rest
  termination_by t.length

end Glob

end Bytewise

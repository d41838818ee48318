import Bytewise.FileTree.Basic

/-!
# Command lines

Which options a program has is a table of rules. What a command line comes to against such a table
keeps every occurrence of an option in order, because the meaning of repeated options depends on it.
-/

namespace Bytewise

/-- Why a command line is refused before anything runs. -/
inductive UsageFault where
  | noSuchOption
  /-- An option lacks its value, or has one that it cannot take. -/
  | badOptionUsage
  /-- A value is not one of those that the option admits. -/
  | badParameter
  /-- There is no such command. -/
  | badCommand
  deriving DecidableEq, Repr

/-- What an option expects after it. -/
inductive ValueForm where
  | flag
  | text
  | path
  /-- One of the given words, in any case. -/
  | choice (words : List Text)
  deriving DecidableEq, Repr

/-- An option, the names under which it can be given, and what it expects. -/
structure OptionRule (α : Type) where
  key : α
  names : List Text
  form : ValueForm := .flag

def OptionRule.takesValue {α : Type} (r : OptionRule α) : Bool := r.form ≠ .flag

/-- A command line that was read: the options in the order they were given, each with its value, and
the operands. -/
structure Arguments (α : Type) where
  given : List (α × Option Text) := []
  operands : List Text := []

namespace Arguments

variable {α : Type} [DecidableEq α]

def has (a : Arguments α) (key : α) : Bool := a.given.any (·.1 = key)

def values (a : Arguments α) (key : α) : List Text :=
  a.given.filterMap fun (k, v) => if k = key then v else none

/-- The value of an option: the last one given. -/
def value? (a : Arguments α) (key : α) : Option Text := (a.values key).getLast?

/-- The options given, in the order of their first occurrences. -/
def inOrder (a : Arguments α) : List α := (a.given.map Prod.fst).eraseDups

/-- Of several options that exclude one another, the one whose first occurrence is last. -/
def lastOf {β : Type} (a : Arguments α) (meaning : α → Option β) : Option β :=
  (a.inOrder.filterMap meaning).getLast?

end Arguments

end Bytewise

import Bytewise.Command.Arguments

/-!
# Packages for command lines

A package reads command lines against a table of options. If it refuses one it says so on standard
error in its own words, which depend on the command as it was given.
-/

namespace Bytewise

/-- A command as it was given: the program, whether it runs below the umbrella program, and its
arguments. -/
structure Invocation where
  program : Text
  below : Bool
  args : List Text
  deriving DecidableEq, Repr

/-- A package that reads command lines. -/
structure CommandLinePackage where
  /-- Read arguments. Where options and operands may not be mixed, the first operand ends the
  options. -/
  read : {α : Type} → List (OptionRule α) → (mixed : Bool) → List Text →
    Except UsageFault (Arguments α)
  /-- What is written to standard error about a command line that is refused. -/
  complaint : Invocation → UsageFault → Bytes

end Bytewise

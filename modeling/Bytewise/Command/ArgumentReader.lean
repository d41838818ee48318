import Bytewise.Command.Arguments

/-!
# Reading command lines

A command line is a list of arguments. Options may stand anywhere among the operands until an
argument `--` ends them; a lone `-` is an operand. A long option takes its value after an equals
sign or from the next argument, whatever that looks like. Short options may be run together, and one
that takes a value takes the rest of its argument, or the next one if nothing is left.
-/

namespace Bytewise

namespace Arguments

variable {α : Type}

def ruleFor (rules : List (OptionRule α)) (name : Text) : Option (OptionRule α) :=
  rules.find? (·.names.contains name)

def isLong (arg : Text) : Bool := Text.startsWith arg "--"

def isOption (arg : Text) : Bool := arg.head? = some (.char '-') && 1 < arg.length

/-- The options of one argument, and the option that still needs a value from the next argument. -/
structure Reading (α : Type) where
  given : List (α × Option Text)
  needsValue : Option α := none

/-- Split an argument at its first equals sign. -/
def splitValue (arg : Text) : Text × Option Text :=
  let isEquals (s : Symbol) : Bool := s == .char '='
  match arg.dropWhile (!isEquals ·) with
  | [] => (arg, none)
  | _ :: value => (arg.takeWhile (!isEquals ·), some value)

def readLong (rules : List (OptionRule α)) (arg : Text) : Except UsageFault (Reading α) :=
  let (name, value) := splitValue arg
  match ruleFor rules name, value with
  | none, _ => .error .noSuchOption
  | some rule, none =>
    .ok (if rule.takesValue then ⟨[], some rule.key⟩ else ⟨[(rule.key, none)], none⟩)
  | some rule, some v =>
    if rule.takesValue then .ok ⟨[(rule.key, some v)], none⟩ else .error .badOptionUsage

def readShort (rules : List (OptionRule α)) : Text → Except UsageFault (Reading α)
  | [] => .ok ⟨[], none⟩
  | s :: rest =>
    match ruleFor rules [.char '-', s] with
    | none => .error .noSuchOption
    | some rule =>
      if rule.takesValue then
        .ok (if rest.isEmpty then ⟨[], some rule.key⟩ else ⟨[(rule.key, some rest)], none⟩)
      else (fun r => ⟨(rule.key, none) :: r.given, r.needsValue⟩) <$> readShort rules rest

def readOption (rules : List (OptionRule α)) (arg : Text) : Except UsageFault (Reading α) :=
  if isLong arg then readLong rules arg else readShort rules (arg.drop 1)

/-- Put options in front of a command line that was read. -/
def prepend (given : List (α × Option Text)) (a : Arguments α) : Arguments α :=
  { a with given := given ++ a.given }

/-- Read a command line. Where options and operands may not be mixed, the first operand ends the
options. -/
def read (rules : List (OptionRule α)) (mixed : Bool) : List Text → Except UsageFault (Arguments α)
  | [] => .ok {}
  | arg :: rest =>
    if arg = Text.ofString "--" then .ok ⟨[], rest⟩
    else if isOption arg then
      match readOption rules arg, rest with
      | .error fault, _ => .error fault
      | .ok ⟨given, none⟩, rest => prepend given <$> read rules mixed rest
      | .ok ⟨_, some _⟩, [] => .error .badOptionUsage
      | .ok ⟨given, some key⟩, value :: rest =>
        prepend (given ++ [(key, some value)]) <$> read rules mixed rest
    else if mixed then
      (fun a => { a with operands := arg :: a.operands }) <$> read rules mixed rest
    else .ok ⟨[], arg :: rest⟩

end Arguments

end Bytewise

import Bytewise.Value.Basic

/-!
# Documents

A document is the text of a value in one of the two formats. Reading one fails because the text is
not in the format, or because it holds something that cannot be made a value. Writing one fails
because some part of the value has no written form: a whole number must not have more decimal digits
than would be read back.
-/

namespace Bytewise

/-- Why a part of a document that is in the format has no value. -/
inductive Refusal where
  | numeralTooLong (digits : Nat)
  /-- A numeral of a base other than ten has no digits. -/
  | noDigits (base : Nat)
  /-- A date or a time that does not exist. -/
  | badMoment (reason : Text)
  /-- A fraction in base sixty has a place whose value exceeds every machine number. -/
  | fractionTooLarge
  /-- An escape by a number that no character has. -/
  | noCharacter (number : Nat)
  /-- Whatever else a package raises for a part that it cannot make a value of. -/
  | raised (kind message : Text)
  deriving DecidableEq, Repr

/-- The largest number that may be asked for as a character at all. -/
def numberLimit : Nat := 0x7FFFFFFF

def Refusal.fault : Refusal → Fault
  | .numeralTooLong digits => .numeralTooLong digits
  | .noDigits base => .badNumeral base []
  | .badMoment reason => .badMoment reason
  | .fractionTooLarge => .tooLarge
  | .noCharacter number => if numberLimit < number then .tooLarge else .noCharacter
  | .raised kind message => .raised kind message

/-- Why a document has no value. -/
inductive DocumentFault where
  /-- The text is not in the format. -/
  | malformed
  /-- The text is in the format, and a part of it is refused. -/
  | refused (cause : Refusal)
  deriving DecidableEq, Repr

/-- A decimal numeral as a number, unless it is too long. -/
def readDecimalNumeral (digits : List Char) : Except DocumentFault Nat :=
  if Numeral.digitLimit < digits.length then .error (.refused (.numeralTooLong digits.length))
  else .ok (Numeral.value 10 digits)

namespace Value

mutual

/-- The first fault among the parts of a value, in the order they are written, where `fault?` is
asked about those that hold no others. -/
def firstFault? (fault? : Value → Option Fault) : Value → Option Fault
  | .list items => firstItemFault? fault? items
  | .tuple items => firstItemFault? fault? items
  | .map entries => firstEntryFault? fault? entries
  | v => fault? v

def firstItemFault? (fault? : Value → Option Fault) : List Value → Option Fault
  | [] => none
  | v :: rest => (firstFault? fault? v).or (firstItemFault? fault? rest)

def firstEntryFault? (fault? : Value → Option Fault) : List (Value × Value) → Option Fault
  | [] => none
  | (k, v) :: rest =>
    (firstFault? fault? k).or ((firstFault? fault? v).or (firstEntryFault? fault? rest))

end

end Value

end Bytewise

import Bytewise.Fault

/-!
# Offsets

An offset is read as the longest beginning of a text that is a number: blanks, a sign, and then
hexadecimal digits after `0x`, octal digits after `0`, or decimal digits. Whatever follows is
ignored, and a text that begins with no number reads as zero.
-/

namespace Bytewise.Offset

/-- The base of the number that the characters begin with, and its digits. After `0x` without a
hexadecimal digit the number is the zero alone. -/
def magnitude : List Char → Nat × List Char
  | '0' :: x :: rest =>
    if (x = 'x' ∨ x = 'X') ∧ (rest.head?.any (Numeral.isDigit 16)) then
      (16, rest.takeWhile (Numeral.isDigit 16))
    else (8, '0' :: (x :: rest).takeWhile (Numeral.isDigit 8))
  | cs => if cs.head? = some '0' then (8, ['0']) else (10, cs.takeWhile (Numeral.isDigit 10))

def dropBlanks (cs : List Char) : List Char := cs.dropWhile isBlankChar

/-- Split off a sign: is it a minus, and what follows? -/
def sign : List Char → Bool × List Char
  | '+' :: rest => (false, rest)
  | '-' :: rest => (true, rest)
  | rest => (false, rest)

/-- Read an offset. Only a decimal numeral can be too long. -/
def parse (cs : List Char) : Except Fault Int :=
  let (negative, rest) := sign (dropBlanks cs)
  let (base, digits) := magnitude rest
  if base = 10 && Numeral.digitLimit < digits.length then .error (.numeralTooLong digits.length)
  else
    let n : Int := Numeral.value base digits
    .ok (if negative then -n else n)

end Bytewise.Offset

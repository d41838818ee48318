import Bytewise.Text.Blank
import Bytewise.Text.Digit

/-!
# Written numbers

Numbers are written as lists of digit characters in some base, padded to a width with zeros or
spaces; a minus sign counts towards the width. They are read back digit by digit.

Whole numbers in settings and in the environment follow one grammar (`Numeral.readInteger?`): blanks
around, a sign, and decimal digits in which a single underscore may stand between two digits. The
number of digits is limited, because the time to convert a decimal numeral grows with the square of
its length.
-/

namespace Bytewise.Numeral

/-- The digits of a number, most significant first, at least one. -/
abbrev digits (base n : Nat) : List Char := Nat.toDigits base n

/-- Put copies of a character in front until the width is reached. -/
def padLeft (pad : Char) (width : Nat) (cs : List Char) : List Char :=
  List.replicate (width - cs.length) pad ++ cs

def zeroPadded (base width n : Nat) : List Char := padLeft '0' width (digits base n)

/-- An integer with leading zeros; a minus sign takes one place of the width. -/
def signedZeroPadded (base width : Nat) : Int → List Char
  | .ofNat n => zeroPadded base width n
  | .negSucc n => '-' :: zeroPadded base (width - 1) (n + 1)

def decimal : Int → List Char
  | .ofNat n => digits 10 n
  | .negSucc n => '-' :: digits 10 (n + 1)

def rightAligned (width : Nat) (n : Int) : List Char := padLeft ' ' width (decimal n)

/-- The value of a digit in bases up to sixteen, letters in either case. -/
def digit? (c : Char) : Option Nat :=
  if '0' ≤ c && c ≤ '9' then some (c.toNat - '0'.toNat)
  else if 'a' ≤ c && c ≤ 'f' then some (c.toNat - 'a'.toNat + 10)
  else if 'A' ≤ c && c ≤ 'F' then some (c.toNat - 'A'.toNat + 10)
  else none

def isDigit (base : Nat) (c : Char) : Bool := (digit? c).any (· < base)

/-- The number a list of digits stands for; a character that is no digit counts as zero. -/
def value (base : Nat) (cs : List Char) : Nat :=
  cs.foldl (fun n c => n * base + (digit? c).getD 0) 0

/-- The most decimal digits that are converted to a number or from one. -/
def digitLimit : Nat := 4300

def powerOfTen (zeros : Nat) : Nat := Nat.pow 10 zeros

/-- Has the number few enough decimal digits to be converted? -/
def isShort (n : Int) : Bool := n.natAbs < powerOfTen digitLimit

/-- The digit values of a run of decimal digits with single underscores between them. -/
def decimalRun? : List Char → Option (List Nat)
  | [] => none
  | c :: rest =>
    match decimalDigit? c, rest with
    | none, _ => none
    | some d, [] => some [d]
    | some d, '_' :: more => (decimalRun? more).map (d :: ·)
    | some d, next :: more => (decimalRun? (next :: more)).map (d :: ·)

def readNatural? (cs : List Char) : Option Nat :=
  match decimalRun? cs with
  | some ds => if ds.length ≤ digitLimit then some (ds.foldl (fun n d => n * 10 + d) 0) else none
  | none => none

/-- The blanks that may stand around a number: all but the four information separators. -/
def isOuterBlank (c : Char) : Bool := isBlankChar c && !(0x1C ≤ c.toNat && c.toNat ≤ 0x1F)

/-- Read a whole number with blanks around it and an optional sign. -/
def readInteger? (cs : List Char) : Option Int :=
  let body := ((cs.dropWhile isOuterBlank).reverse.dropWhile isOuterBlank).reverse
  match body with
  | '+' :: rest => (readNatural? rest).map Int.ofNat
  | '-' :: rest => (readNatural? rest).map fun n => -(Int.ofNat n)
  | rest => (readNatural? rest).map Int.ofNat

end Bytewise.Numeral

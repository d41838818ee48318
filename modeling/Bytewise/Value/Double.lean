import Bytewise.Numeral

/-!
# Machine numbers

A number with a fraction or an exponent is the machine number that is nearest to what is written: a
significand of at most 53 binary places times a power of two, where of two that are equally near the
even one is taken. What is too large becomes infinite and what is too small becomes zero, so that
`1e-400` counts as zero.

A machine number is written with the fewest digits that are read back as the same number.
-/

namespace Bytewise

/-- A machine number. -/
inductive Double where
  /-- The significand times two to the exponent. -/
  | finite (negative : Bool) (significand : Nat) (exponent : Int)
  | infinite (negative : Bool)
  | notANumber
  deriving DecidableEq, Repr

namespace Double

/-! ## Rounding -/

/-- The number of binary places of a significand. -/
def precision : Nat := 53

/-- The exponent of the smallest machine numbers. -/
def leastExponent : Int := -1074

/-- The exponent of the largest machine numbers. -/
def greatestExponent : Int := 971

def powerOfTwo (places : Nat) : Nat := Nat.pow 2 places

/-- Double a natural number so often, and not at all if that is a negative number of times. -/
def scale (n : Nat) (times : Int) : Nat := n * powerOfTwo times.toNat

/-- A quotient rounded to the nearest whole number, and to the even one of two. -/
def roundQuotient (n d : Nat) : Nat :=
  let q := n / d
  if 2 * (n % d) < d then q
  else if d < 2 * (n % d) then q + 1
  else q + q % 2

/-- The exponent at which a quotient has a significand of full precision. -/
def exponentFor (n d : Nat) : Int :=
  let most : Int := (Nat.log2 n : Int) - Nat.log2 d - (precision - 1 : Nat)
  let full := scale (d * powerOfTwo (precision - 1)) most ≤ scale n (-most)
  max (if full then most else most - 1) leastExponent

/-- The machine number that is nearest to a quotient of positive numbers. -/
def ofQuotient (negative : Bool) (n d : Nat) : Double :=
  let exponent := exponentFor n d
  let significand := roundQuotient (scale n (-exponent)) (scale d exponent)
  let (significand, exponent) :=
    if significand = powerOfTwo precision then (powerOfTwo (precision - 1), exponent + 1)
    else (significand, exponent)
  if greatestExponent < exponent then .infinite negative
  else .finite negative significand exponent

def zero (negative : Bool) : Double := .finite negative 0 leastExponent

/-- Numbers of more decimal places before the point are infinite, and numbers with more zeros behind
it are zero. -/
def decimalReach : Int := 400

/-- The machine number that is nearest to a coefficient times a power of ten. -/
def ofDecimal (negative : Bool) (coefficient : Nat) (exponent : Int) : Double :=
  let magnitude := (Numeral.digits 10 coefficient).length + exponent
  if coefficient = 0 || magnitude < -decimalReach then zero negative
  else if decimalReach < magnitude then .infinite negative
  else ofQuotient negative (coefficient * Numeral.powerOfTen exponent.toNat)
    (Numeral.powerOfTen (-exponent).toNat)

/-! ## Whole numbers -/

def isZero : Double → Bool
  | .finite _ significand _ => significand == 0
  | _ => false

def signed (negative : Bool) (n : Nat) : Int := if negative then -(n : Int) else n

/-- The whole number that a machine number is cut to, towards zero. -/
def truncate? : Double → Option Int
  | .finite negative m e => some (signed negative (scale m e / powerOfTwo (-e).toNat))
  | _ => none

/-- The whole number that a machine number is equal to, if it is one. -/
def whole? : Double → Option Int
  | .finite negative m e =>
    let parts := powerOfTwo (-e).toNat
    if scale m e % parts = 0 then some (signed negative (scale m e / parts)) else none
  | _ => none

/-- Are two machine numbers equal as numbers? Nothing is equal to what is no number. -/
def same : Double → Double → Bool
  | .finite s m e, .finite s' m' e' => (m == 0 && m' == 0) || (s == s' && m == m' && e == e')
  | .infinite s, .infinite s' => s == s'
  | _, _ => false

/-! ## Writing -/

/-- The number of decimal places before the point, which is negative if zeros stand behind it. -/
def decimalPlaces (n d : Nat) : Int :=
  let shift : Nat := 400
  (Numeral.digits 10 (n * Numeral.powerOfTen shift / d)).length - (shift : Int)

/-- The multiple of a power of ten with few digits that is nearest to a positive quotient, among the
two around it that are read back as the given number. -/
def decimalWith? (x : Double) (negative : Bool) (n d : Nat) (exponent : Int) : Option Nat :=
  let n := n * Numeral.powerOfTen (-exponent).toNat
  let d := d * Numeral.powerOfTen exponent.toNat
  let below := n / d
  let nearest := roundQuotient n d
  let other := if nearest = below then below + 1 else below
  [nearest, other].find? fun c => ofDecimal negative c exponent = x

/-- The most decimal digits that are needed to tell machine numbers apart. -/
def digitsNeeded : Nat := 17

/-- The shortest coefficient that is read back, with its power of ten. -/
def shortest (x : Double) (negative : Bool) (n d : Nat) : Nat × Int :=
  let places := decimalPlaces n d
  let found := (List.range digitsNeeded).findSome? fun i =>
    let exponent := places - (i + 1 : Nat)
    (decimalWith? x negative n d exponent).map (·, exponent)
  found.getD (0, 0)

/-- Drop zeros at the end of a coefficient, raising the exponent; the fuel bounds their number. -/
def dropZeros : Nat → Nat → Int → Nat × Int
  | 0, c, e => (c, e)
  | fuel + 1, c, e => if c ≠ 0 ∧ c % 10 = 0 then dropZeros fuel (c / 10) (e + 1) else (c, e)

/-- The digits of a positive number, with a point if the magnitude is moderate and with an exponent
otherwise. -/
def writeDigits (ds : List Char) (e : Int) : List Char :=
  let point : Int := ds.length + e
  if -4 < point && point ≤ 16 then
    if 0 ≤ e then ds ++ List.replicate e.toNat '0' ++ ['.', '0']
    else if 0 < point then ds.take point.toNat ++ '.' :: ds.drop point.toNat
    else '0' :: '.' :: List.replicate (-point).toNat '0' ++ ds
  else
    let mantissa := match ds with
      | [] => []
      | [d] => [d]
      | d :: rest => d :: '.' :: rest
    let power := point - 1
    let sign := if power < 0 then '-' else '+'
    mantissa ++ 'e' :: sign :: Numeral.zeroPadded 10 2 power.natAbs

def write (x : Double) : List Char :=
  match x with
  | .notANumber => "nan".toList
  | .infinite negative => if negative then "-inf".toList else "inf".toList
  | .finite negative m e =>
    let body :=
      if m = 0 then "0.0".toList
      else
        let (c, e) := x.shortest negative (scale m e) (powerOfTwo (-e).toNat)
        let (c, e) := dropZeros digitsNeeded c e
        writeDigits (Numeral.digits 10 c) e
    if negative then '-' :: body else body

end Double

end Bytewise

import Bytewise.Value.Document

/-!
# Plain scalars

An unquoted scalar stands for the value that its spelling suggests: nothing, a truth value, a whole
number in one of five notations, a decimal fraction, a date, or else the text itself. `resolve`
gives the value; it fails for dates that do not exist and for numerals that are not read. The writer
uses the same tests the other way round (`isPlainWord`): a text may stand without quotes only if it
would be read back as text.
-/

namespace Bytewise.Yaml

def isBreak (c : Char) : Bool :=
  c = '\n' || c.toNat = 0x85 || c.toNat = 0x2028 || c.toNat = 0x2029

def isBinary (c : Char) : Bool := c = '0' || c = '1' || c = '_'

def isOctal (c : Char) : Bool := Numeral.isDigit 8 c || c = '_'

def isDecimal (c : Char) : Bool := Numeral.isDigit 10 c || c = '_'

def isHex (c : Char) : Bool := Numeral.isDigit 16 c || c = '_'

/-- Not empty, and every character passes the test. -/
def allOf (p : Char → Bool) (cs : List Char) : Bool := !cs.isEmpty && cs.all p

/-- Split off a sign: is it a minus, and what follows? -/
def splitSign : List Char → Bool × List Char
  | '+' :: rest => (false, rest)
  | '-' :: rest => (true, rest)
  | rest => (false, rest)

/-- A word in small letters, with a capital, or in capitals. -/
def isSpelling (word : String) (cs : List Char) : Bool :=
  let small := word.toList
  let capital := match small with
    | c :: rest => c.toUpper :: rest
    | [] => []
  cs = small || cs = capital || cs = small.map Char.toUpper

def isNull (cs : List Char) : Bool := cs.isEmpty || cs = ['~'] || isSpelling "null" cs

def bool? (cs : List Char) : Option Bool :=
  if ["yes", "true", "on"].any (isSpelling · cs) then some true
  else if ["no", "false", "off"].any (isSpelling · cs) then some false
  else none

def cutColons (cs : List Char) : List (List Char) :=
  ((Text.ofChars cs).splitAt (.char ':')).map (·.filterMap Symbol.char?)

/-- A place of a number in base sixty after the first: at most two digits, below sixty. -/
def isSixtieth : List Char → Bool
  | [a] => Numeral.isDigit 10 a
  | [a, b] => Numeral.isDigit 6 a && Numeral.isDigit 10 b
  | _ => false

inductive WholeNotation where
  | binary
  | octal
  | decimal
  | hexadecimal
  | sixties
  deriving DecidableEq

def wholeNotation? (cs : List Char) : Option WholeNotation :=
  match cs with
  | ['0'] => some .decimal
  | '0' :: 'b' :: rest => if allOf isBinary rest then some .binary else none
  | '0' :: 'x' :: rest => if allOf isHex rest then some .hexadecimal else none
  | '0' :: rest => if allOf isOctal rest then some .octal else none
  | _ =>
    match cutColons cs with
    | first :: places =>
      if !(allOf isDecimal first && first.head?.any (fun c => '1' ≤ c && c ≤ '9')) then none
      else if places.isEmpty then some .decimal
      else if places.all isSixtieth then some .sixties
      else none
    | [] => none

/-- The digits of a numeral in a base, which may turn out to be none. -/
def readDigits (base : Nat) (cs : List Char) : Except DocumentFault Nat :=
  if cs.isEmpty then .error (.refused (.noDigits base)) else .ok (Numeral.value base cs)

/-- The value of a whole number without its sign. -/
def readWhole (n : WholeNotation) (cs : List Char) : Except DocumentFault Nat :=
  let cs := cs.filter (· != '_')
  match n with
  | .binary => readDigits 2 (cs.drop 2)
  | .octal => readDigits 8 cs
  | .hexadecimal => readDigits 16 (cs.drop 2)
  | .decimal => readDecimalNumeral cs
  | .sixties =>
    (cutColons cs).foldlM (fun n place => do return n * 60 + (← readDecimalNumeral place)) 0

/-- Drop an exponent with a sign, if that is all there is: `none` if something else is left. -/
def exponentOnly? : List Char → Option Int
  | [] => some 0
  | e :: sign :: ds =>
    if (e = 'e' || e = 'E') && (sign = '+' || sign = '-') && allOf (Numeral.isDigit 10) ds then
      let n : Int := Numeral.value 10 ds
      some (if sign = '-' then -n else n)
    else none
  | _ => none

/-- Digits without the underscores between them. -/
def plainDigits (cs : List Char) : List Char := cs.filter (· != '_')

/-- A decimal fraction without its sign: digits, a point, digits and an exponent. A fraction that
starts with the point has a digit behind it and no sign in front (`signed`). -/
def fraction? (signed negative : Bool) (cs : List Char) : Option Double :=
  let whole := cs.takeWhile isDecimal
  match cs.drop whole.length with
  | '.' :: rest =>
    let part := rest.takeWhile isDecimal
    let ok := if whole.isEmpty then !signed && part.head?.any (Numeral.isDigit 10)
      else whole.head?.any (Numeral.isDigit 10)
    match exponentOnly? (rest.drop part.length) with
    | some e =>
      let digits := plainDigits part
      if ok then
        some (.ofDecimal negative (Numeral.value 10 (plainDigits whole ++ digits))
          (e - digits.length))
      else none
    | none => none
  | _ => none

/-- A decimal fraction in base sixty, without its sign. -/
def sixtyFraction? (negative : Bool) (cs : List Char) : Option Double :=
  let whole := cs.takeWhile (· != '.')
  match cs.drop whole.length, cutColons whole with
  | '.' :: part, first :: places =>
    if allOf isDecimal first && first.head?.any (Numeral.isDigit 10) && !places.isEmpty &&
        places.all isSixtieth && part.all isDecimal then
      let n := (first :: places).foldl
        (fun n place => n * 60 + Numeral.value 10 (plainDigits place)) 0
      let digits := plainDigits part
      some (.ofDecimal negative (n * Numeral.powerOfTen digits.length + Numeral.value 10 digits)
        (-(digits.length : Int)))
    else none
  | _, _ => none

/-- The decimal fraction that a scalar spells. -/
def decimal? (cs : List Char) : Option Double :=
  let (negative, body) := splitSign cs
  let signed := body.length < cs.length
  match body with
  | '.' :: word =>
    if [".inf", ".Inf", ".INF"].any (·.toList = body) then some (.infinite negative)
    else if !signed && ["nan", "NaN", "NAN"].any (·.toList = word) then some .notANumber
    else fraction? signed negative body
  | _ => (fraction? signed negative body).or (sixtyFraction? negative body)

def takeDigits? (low high : Nat) (cs : List Char) : Option (List Char) :=
  let ds := (cs.take high).takeWhile (Numeral.isDigit 10)
  if low ≤ ds.length then some (cs.drop ds.length) else none

def takeChar? (c : Char) : List Char → Option (List Char)
  | d :: rest => if d = c then some rest else none
  | [] => none

/-- An offset from universal time, possibly after blanks, up to the end. -/
def isZone (cs : List Char) : Bool :=
  match cs.dropWhile (fun c => c = ' ' || c = '\t') with
  | [] => cs.isEmpty
  | ['Z'] => true
  | sign :: rest =>
    (sign = '+' || sign = '-') &&
      match takeDigits? 1 2 rest with
      | some [] => true
      | some (':' :: rest) => takeDigits? 2 2 rest = some []
      | _ => false

/-- A time of day and an offset, up to the end. -/
def isClock (cs : List Char) : Bool :=
  let rest? := do
    let cs ← takeDigits? 1 2 cs
    let cs ← takeChar? ':' cs
    let cs ← takeDigits? 2 2 cs
    let cs ← takeChar? ':' cs
    takeDigits? 2 2 cs
  match rest? with
  | none => false
  | some ('.' :: rest) => isZone (rest.dropWhile (Numeral.isDigit 10))
  | some rest => isZone rest

/-- A date, or a date with a time of day. -/
def isMoment (cs : List Char) : Bool :=
  let date? (low : Nat) : Option (List Char) := do
    let cs ← takeDigits? 4 4 cs
    let cs ← takeChar? '-' cs
    let cs ← takeDigits? low 2 cs
    let cs ← takeChar? '-' cs
    takeDigits? low 2 cs
  date? 2 = some [] ||
    match date? 1 with
    | some (c :: rest) =>
      if c = 'T' || c = 't' then isClock rest
      else if c = ' ' || c = '\t' then isClock (rest.dropWhile fun c => c = ' ' || c = '\t')
      else false
    | _ => false

/-- The numbers of a moment in the order they are written, without the fraction of a second. -/
def momentNumbers (cs : List Char) : List Nat :=
  let whole := cs.takeWhile (· != '.')
  let behind := (cs.drop (whole.length + 1)).dropWhile (Numeral.isDigit 10)
  let runs := (whole ++ behind).splitBy fun a b => Numeral.isDigit 10 a == Numeral.isDigit 10 b
  (runs.filter (·.all (Numeral.isDigit 10))).map (Numeral.value 10)

def daysOfMonth (year month : Nat) : Nat :=
  if month = 2 then
    if year % 4 = 0 && (year % 100 != 0 || year % 400 = 0) then 29 else 28
  else if month = 4 || month = 6 || month = 9 || month = 11 then 30
  else 31

def dayFault? (year month day : Nat) : Option Text :=
  if year = 0 then some "year 0 is out of range"
  else if month = 0 || 12 < month then some "month must be in 1..12"
  else if day = 0 || daysOfMonth year month < day then some "day is out of range for month"
  else none

/-- Why there is no such time of day. -/
def clockFault? (hour minute second : Nat) : Option Text :=
  if 23 < hour then some "hour must be in 0..23"
  else if 59 < minute then some "minute must be in 0..59"
  else if 59 < second then some "second must be in 0..59"
  else none

/-- Why there is no such offset from universal time: it has to be less than a day. -/
def zoneFault? (west : Bool) (hours minutes : Nat) : Option Text :=
  let size := hours * 60 + minutes
  if size < 1440 then none
  else
    let offset : Int := if west then -size else size
    let number (n : Int) : Text := Text.ofChars (Numeral.decimal n)
    let seconds : Text :=
      if offset % 1440 = 0 then "" else ", seconds=" ++ number (offset % 1440 * 60)
    let bounds : Text := "strictly between -timedelta(hours=24) and timedelta(hours=24)"
    some ("offset must be a timedelta " ++ bounds ++ ", not datetime.timedelta(days=" ++
      number (offset / 1440) ++ seconds ++ ").")

/-- Why a date, or a date with a time of day, does not exist. The offset is looked at first. -/
def momentFault? (cs : List Char) : Option Text :=
  let west := (cs.dropWhile (· != ':')).contains '-'
  match momentNumbers cs with
  | [year, month, day] => dayFault? year month day
  | year :: month :: day :: hour :: minute :: second :: zone =>
    (zoneFault? west (zone.getD 0 0) (zone.getD 1 0)).or
      ((dayFault? year month day).or (clockFault? hour minute second))
  | _ => none

/-- Spellings that are kept for other purposes and have no value. -/
def isReserved (cs : List Char) : Bool := cs = ['='] || cs = ['<', '<']

/-- Would the scalar be read as text? -/
def isPlainWord (cs : List Char) : Bool :=
  !(isNull cs || (bool? cs).isSome || (wholeNotation? (splitSign cs).2).isSome ||
    (decimal? cs).isSome || isMoment cs || isReserved cs)

/-- The most places that a fraction in base sixty may have: the value of another one would exceed
every machine number. -/
def sixtyLimit : Nat := 174

def resolve (cs : List Char) : Except DocumentFault Value :=
  if isNull cs then .ok .null
  else if isReserved cs then .error .malformed
  else if isMoment cs then
    match momentFault? cs with
    | some reason => .error (.refused (.badMoment reason))
    | none => .ok (.moment (Text.ofChars cs))
  else match bool? cs with
    | some b => .ok (.bool b)
    | none =>
      let (negative, body) := splitSign cs
      match wholeNotation? body with
      | some n => do
        let value ← readWhole n body
        return .int (if negative then -(value : Int) else value)
      | none =>
        match decimal? cs with
        | some d =>
          if sixtyLimit < (cutColons cs).length then .error (.refused .fractionTooLarge)
          else .ok (.real d)
        | none => .ok (.text (Text.ofChars cs))

end Bytewise.Yaml

import Bytewise.Value.Document

/-!
# Reading JSON

The reader goes through the characters once. Its functions take the text that is left and return a
value with what is left behind it. The nesting of collections is bounded by the length of the text,
which is the fuel that `read` starts with; a text never runs out of it.

Beyond the standard the names `NaN`, `Infinity` and `-Infinity` are numbers. A repeated key takes
the value given last and the place of the first.
-/

namespace Bytewise.Json

/-- What a reading function returns: a value and the text behind it. -/
abbrev Behind (α : Type) := α × List Char

def isBlank (c : Char) : Bool := c = ' ' || c = '\t' || c = '\n' || c = '\r'

def skipBlanks (cs : List Char) : List Char := cs.dropWhile isBlank

/-- The number of four hexadecimal digits in front. -/
def unit? : List Char → Option (Nat × List Char)
  | a :: b :: c :: d :: rest =>
    if [a, b, c, d].all (Numeral.isDigit 16) then some (Numeral.value 16 [a, b, c, d], rest)
    else none
  | _ => none

/-- The symbol of an escaped number that is no half of a pair. -/
def unitSymbol (n : Nat) : Symbol :=
  if 0xDC80 ≤ n && n ≤ 0xDCFF then .stray (n - 0xDC00).toUInt8
  else if 0xD800 ≤ n && n ≤ 0xDFFF then .char '\ufffd'
  else .char (Char.ofNat n)

/-- The second half of a pair of escapes, if it follows. -/
def lowHalf? : List Char → Option (Nat × List Char)
  | '\\' :: 'u' :: rest =>
    match unit? rest with
    | some (n, rest) => if 0xDC00 ≤ n && n ≤ 0xDFFF then some (n, rest) else none
    | none => none
  | _ => none

/-- An escape behind its backslash: the symbol it stands for. -/
def escape? : List Char → Option (Symbol × List Char)
  | '"' :: rest => some (.char '"', rest)
  | '\\' :: rest => some (.char '\\', rest)
  | '/' :: rest => some (.char '/', rest)
  | 'b' :: rest => some (.char '\x08', rest)
  | 'f' :: rest => some (.char '\x0c', rest)
  | 'n' :: rest => some (.char '\n', rest)
  | 'r' :: rest => some (.char '\r', rest)
  | 't' :: rest => some (.char '\t', rest)
  | 'u' :: rest =>
    match unit? rest with
    | none => none
    | some (n, rest) =>
      if 0xD800 ≤ n && n ≤ 0xDBFF then
        match lowHalf? rest with
        | some (low, rest) =>
          some (.char (Char.ofNat (0x10000 + (n - 0xD800) * 0x400 + (low - 0xDC00))), rest)
        | none => some (unitSymbol n, rest)
      else some (unitSymbol n, rest)
  | _ => none

/-- Read a string behind its opening quote; the symbols read so far are kept in reverse. -/
def readString : Nat → Text → List Char → Except DocumentFault (Behind Text)
  | 0, _, _ => .error .malformed
  | _ + 1, _, [] => .error .malformed
  | _ + 1, done, '"' :: rest => .ok (done.reverse, rest)
  | fuel + 1, done, '\\' :: rest =>
    match escape? rest with
    | some (s, rest) => readString fuel (s :: done) rest
    | none => .error .malformed
  | fuel + 1, done, c :: rest =>
    if c.toNat < 0x20 then .error .malformed else readString fuel (.char c :: done) rest

def digitRun (cs : List Char) : List Char × List Char :=
  (cs.takeWhile (Numeral.isDigit 10), cs.dropWhile (Numeral.isDigit 10))

/-- The whole part of a number: a zero alone, or digits that do not start with zero. -/
def wholePart? : List Char → Option (List Char × List Char)
  | '0' :: rest => some (['0'], rest)
  | cs => match digitRun cs with
    | ([], _) => none
    | part => some part

/-- The digits behind a point, if there are any; a point without digits is left. -/
def fraction (cs : List Char) : List Char × List Char :=
  match cs with
  | '.' :: rest => match digitRun rest with
    | ([], _) => ([], cs)
    | part => part
  | _ => ([], cs)

def exponent? (cs : List Char) : Option (Int × List Char) :=
  match cs with
  | e :: rest =>
    if e = 'e' || e = 'E' then
      let (negative, rest) := match rest with
        | '-' :: rest => (true, rest)
        | '+' :: rest => (false, rest)
        | rest => (false, rest)
      match digitRun rest with
      | ([], _) => none
      | (ds, rest) =>
        let n : Int := Numeral.value 10 ds
        some (if negative then -n else n, rest)
    else none
  | [] => none

def readMagnitude (negative : Bool) (cs : List Char) : Except DocumentFault (Behind Value) :=
  match wholePart? cs with
  | none => .error .malformed
  | some (whole, rest) =>
    let signed (n : Nat) : Int := if negative then -(n : Int) else n
    let (frac, afterFraction) := fraction rest
    let real (exponent : Int) : Value :=
      .real (.ofDecimal negative (Numeral.value 10 (whole ++ frac)) (exponent - frac.length))
    match frac.isEmpty, exponent? afterFraction with
    | true, none => do
      let n ← readDecimalNumeral whole
      return (.int (signed n), rest)
    | _, some (e, rest) => .ok (real e, rest)
    | false, none => .ok (real 0, afterFraction)

def dropWord? (word : String) (cs : List Char) : Option (List Char) :=
  if word.toList.isPrefixOf cs then some (cs.drop word.length) else none

def readScalar (cs : List Char) : Except DocumentFault (Behind Value) :=
  match cs with
  | '"' :: rest => do
    let (t, rest) ← readString (rest.length + 1) [] rest
    return (.text t, rest)
  | '-' :: rest =>
    match dropWord? "Infinity" rest with
    | some rest => .ok (.real (.infinite true), rest)
    | none => readMagnitude true rest
  | _ =>
    let words : List (String × Value) :=
      [("null", .null), ("true", .bool true), ("false", .bool false),
       ("NaN", .real .notANumber), ("Infinity", .real (.infinite false))]
    match words.findSome? fun (w, v) => (dropWord? w cs).map (v, ·) with
    | some found => .ok found
    | none => readMagnitude false cs

mutual

def readValue : Nat → List Char → Except DocumentFault (Behind Value)
  | 0, _ => .error .malformed
  | fuel + 1, cs =>
    match cs with
    | '[' :: rest =>
      match skipBlanks rest with
      | ']' :: rest => .ok (.list [], rest)
      | rest => readItems fuel [] rest
    | '\x7b' :: rest =>
      match skipBlanks rest with
      | '\x7d' :: rest => .ok (.map [], rest)
      | rest => readMembers fuel [] rest
    | cs => readScalar cs

/-- Read the items of a list up to its end; those read so far are kept in reverse. -/
def readItems : Nat → List Value → List Char → Except DocumentFault (Behind Value)
  | 0, _, _ => .error .malformed
  | fuel + 1, done, cs => do
    let (v, rest) ← readValue fuel cs
    match skipBlanks rest with
    | ',' :: rest => readItems fuel (v :: done) (skipBlanks rest)
    | ']' :: rest => return (.list (v :: done).reverse, rest)
    | _ => .error .malformed

def readMembers : Nat → List (Value × Value) → List Char → Except DocumentFault (Behind Value)
  | 0, _, _ => .error .malformed
  | fuel + 1, done, cs =>
    match cs with
    | '"' :: rest => do
      let (key, rest) ← readString (rest.length + 1) [] rest
      match skipBlanks rest with
      | ':' :: rest =>
        let (v, rest) ← readValue fuel (skipBlanks rest)
        let done := Value.insert (.text key) v done
        match skipBlanks rest with
        | ',' :: rest => readMembers fuel done (skipBlanks rest)
        | '\x7d' :: rest => return (.map done, rest)
        | _ => .error .malformed
      | _ => .error .malformed
    | _ => .error .malformed

end

def read (cs : List Char) : Except DocumentFault Value := do
  let (v, rest) ← readValue (2 * cs.length + 2) (skipBlanks cs)
  if (skipBlanks rest).isEmpty then return v else .error .malformed

end Bytewise.Json

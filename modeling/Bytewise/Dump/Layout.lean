import Bytewise.Dump.Options

/-!
# Dump lines

A line starts with the offset of its first byte, in at least eight hexadecimal digits. The canonical
layout shows each byte with two digits, a space after every second byte and one more after the
eighth, fills a short line up to the full width, and ends with the printable characters between
bars. The other layouts show what is there and no more.
-/

namespace Bytewise

namespace Layout

/-- The character that stands for a byte: itself if it is printable ASCII, otherwise a dot. -/
def byteChar (b : UInt8) : Char := if 0x20 ≤ b && b < 0x7F then Char.ofNat b.toNat else '.'

def offsetField (offset : Int) : List Char := Numeral.signedZeroPadded 16 8 offset

/-- The hexadecimal columns of the canonical layout from the given column on; bytes that are missing
leave their place blank. -/
def hexColumns (column : Nat) : Nat → Bytes → List Char
  | 0, _ => []
  | left + 1, data =>
    let cell := match data with
      | b :: _ => Numeral.zeroPadded 16 2 b.toNat
      | [] => [' ', ' ']
    let gap := (if column % 2 = 1 then [' '] else []) ++ (if column = 7 then [' '] else [])
    cell ++ gap ++ hexColumns (column + 1) left data.tail

/-- Little-endian words; an odd last byte stands alone. -/
def words : Bytes → List Nat
  | [] => []
  | [a] => [a.toNat]
  | a :: b :: rest => (a.toNat + 256 * b.toNat) :: words rest

def line (l : Layout) (width : Nat) (offset : Int) (data : Bytes) : List Char :=
  match l with
  | .canonical =>
    offsetField offset ++ [' ', ' '] ++ hexColumns 0 width data ++
      [' ', '|'] ++ data.map byteChar ++ ['|']
  | .oneByteHex =>
    offsetField offset ++ ' ' :: data.flatMap fun b => ' ' :: Numeral.zeroPadded 16 2 b.toNat
  | .twoByteDecimal =>
    offsetField offset ++ ' ' :: (words data).flatMap fun w => ' ' :: Numeral.zeroPadded 10 5 w
  | .twoByteOctal =>
    offsetField offset ++ ' ' :: (words data).flatMap fun w => ' ' :: Numeral.zeroPadded 8 6 w

end Layout

end Bytewise

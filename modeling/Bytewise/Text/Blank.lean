import Bytewise.Text.Symbol

/-!
# Blanks

Two notions of blank are in use and never mixed. Bytes are blank by the six bytes of the C locale;
characters are blank by the Unicode property, which also counts the separators `0x1C` to `0x1F`.
-/

namespace Bytewise

/-- The line feed, which ends a line in every byte-oriented part of the library. -/
def newline : UInt8 := 0x0A

/-- The blank bytes of the C locale: space, and `0x09` to `0x0D`. -/
def isBlankByte (b : UInt8) : Bool := b == 0x20 || (0x09 ≤ b && b ≤ 0x0D)

def isBlankChar (c : Char) : Bool :=
  let n := c.toNat
  (0x09 ≤ n && n ≤ 0x0D) || (0x1C ≤ n && n ≤ 0x20) || n == 0x85 || n == 0xA0 || n == 0x1680 ||
    (0x2000 ≤ n && n ≤ 0x200A) || n == 0x2028 || n == 0x2029 || n == 0x202F || n == 0x205F ||
    n == 0x3000

def Symbol.isBlank : Symbol → Bool
  | .char c => isBlankChar c
  | .stray _ => false

namespace Text

def dropEndWhile (p : Symbol → Bool) (t : Text) : Text := (t.reverse.dropWhile p).reverse

def trimEnd (t : Text) : Text := t.dropEndWhile Symbol.isBlank

def isBlank (t : Text) : Bool := t.all Symbol.isBlank

end Text

end Bytewise

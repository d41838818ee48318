import Bytewise.Text.Blank

/-!
# Lines of text

A text file is first read with every line ending turned into a line feed (`universalNewlines`) and
then cut into lines. A listing is cut at each character that Unicode counts as a line break, of
which the line feed is one of many. Byte-oriented tools do neither: they cut after each byte `0x0A`
and keep it (`cutLines`).
-/

namespace Bytewise

/-- Read a carriage return, with or without a line feed after it, as a line feed. -/
def universalNewlines : Text → Text
  | [] => []
  | .char '\r' :: .char '\n' :: rest => .char '\n' :: universalNewlines rest
  | .char '\r' :: rest => .char '\n' :: universalNewlines rest
  | s :: rest => s :: universalNewlines rest

def isLineBreak (c : Char) : Bool :=
  let n := c.toNat
  (0x0A ≤ n && n ≤ 0x0D) || (0x1C ≤ n && n ≤ 0x1E) || n == 0x85 || n == 0x2028 || n == 0x2029

namespace Text

/-- Cut a text into lines without their line breaks; `current` holds the line being read, reversed.
A carriage return and the line feed after it are one break, and a break at the end starts no line.
-/
def linesFrom (current : Text) : Text → List Text
  | [] => if current.isEmpty then [] else [current.reverse]
  | .char '\r' :: .char '\n' :: rest => current.reverse :: linesFrom [] rest
  | .char c :: rest =>
    if isLineBreak c then current.reverse :: linesFrom [] rest
    else linesFrom (.char c :: current) rest
  | s :: rest => linesFrom (s :: current) rest

def lines (t : Text) : List Text := linesFrom [] t

end Text

/-- Cut bytes after each line feed; the finished lines and the line being read are kept in reverse,
so that long input is cut in one pass. -/
def cutLinesFrom (done : List Bytes) (current : Bytes) : Bytes → List Bytes
  | [] => if current.isEmpty then done.reverse else (current.reverse :: done).reverse
  | b :: rest =>
    if b = newline then cutLinesFrom ((b :: current).reverse :: done) [] rest
    else cutLinesFrom done (b :: current) rest

/-- The lines of a file: each ends with its line feed, and a tail without one is a line of its own.
-/
def cutLines (bs : Bytes) : List Bytes := cutLinesFrom [] [] bs

end Bytewise

/-!
# Text with stray bytes

Names of files and lines of listings come from bytes that need not be well-formed UTF-8. A text
here is a list of symbols: a character, or a byte that is part of no character. The second kind
loses nothing, so a text can be written back as the bytes it came from.

Texts are lists, not strings, because almost every rule of the library (trimming, cutting at a
separator, matching a pattern) is stated by recursion on them.
-/

namespace Bytewise

/-- The content of a file or of a stream. -/
abbrev Bytes := List UInt8

/-- One symbol of a text: a character, or a byte that no character accounts for. -/
inductive Symbol where
  | char (c : Char)
  | stray (b : UInt8)
  deriving DecidableEq, Repr, Inhabited

namespace Symbol

/-- The number by which symbols are ordered. A stray byte stands at `0xDC00` plus its value, in the
range that no character uses. -/
def codePoint : Symbol → Nat
  | .char c => c.toNat
  | .stray b => 0xDC00 + b.toNat

def encode : Symbol → Bytes
  | .char c => String.utf8EncodeChar c
  | .stray b => [b]

def char? : Symbol → Option Char
  | .char c => some c
  | .stray _ => none

end Symbol

/-- A text: what a line, a name or a message is made of. -/
abbrev Text := List Symbol

namespace Text

def ofChars (cs : List Char) : Text := cs.map Symbol.char

def ofString (s : String) : Text := ofChars s.toList

instance : Coe String Text := ⟨ofString⟩

/-- The bytes of a text, stray bytes included: the way a name is handed to the file system. -/
def encode (t : Text) : Bytes := t.flatMap Symbol.encode

/-- The characters of a text, or `none` if it has a stray byte. -/
def chars? (t : Text) : Option (List Char) := t.mapM Symbol.char?

/-- The bytes of a text that may be printed: one with a stray byte has no printed form. -/
def encode? (t : Text) : Option Bytes :=
  if t.all (·.char?.isSome) then some t.encode else none

/-- A text as a string, for places where a stray byte cannot be shown. -/
def toString (t : Text) : String :=
  String.ofList (t.map fun s => s.char?.getD '\ufffd')

def startsWith (t : Text) (s : String) : Bool := (ofString s).isPrefixOf t

def endsWith (t : Text) (s : String) : Bool := (ofString s).isSuffixOf t

/-- Order of texts: by the code points of their symbols, a proper beginning first. -/
def le : Text → Text → Bool
  | [], _ => true
  | _ :: _, [] => false
  | a :: s, b :: t =>
    if a.codePoint < b.codePoint then true
    else if b.codePoint < a.codePoint then false
    else le s t

/-- Cut a text at every occurrence of a separator; there is always at least one piece. -/
def splitAt (sep : Symbol) : Text → List Text
  | [] => [[]]
  | a :: t =>
    if a = sep then [] :: splitAt sep t
    else match splitAt sep t with
      | [] => [[a]]
      | piece :: rest => (a :: piece) :: rest

def join (sep : Text) : List Text → Text
  | [] => []
  | [t] => t
  | t :: u :: rest => t ++ sep ++ join sep (u :: rest)

end Text

end Bytewise

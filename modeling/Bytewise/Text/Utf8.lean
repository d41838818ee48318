import Bytewise.Text.Symbol

/-!
# Reading bytes as text

`decode` reads bytes as UTF-8 and never fails: a byte that begins no well-formed character becomes a
stray symbol of its own, and reading goes on with the next byte. `decode?` is the strict reading,
defined exactly when no byte is stray.

A character is accepted in its shortest form only; surrogates and numbers above `0x10FFFF` are not
characters. The bounds on the second byte below say precisely that.
-/

namespace Bytewise.Utf8

/-- Continuation bytes carry six bits of a character. -/
def isContinuation (b : UInt8) : Bool := 0x80 ≤ b && b ≤ 0xBF

/-- The six bits of a continuation byte. -/
def payload (b : UInt8) : Nat := b.toNat - 0x80

/-- The character that the bytes begin with, and how many bytes it takes. -/
def first? : Bytes → Option (Char × Nat)
  | [] => none
  | a :: rest =>
    if a < 0x80 then some (Char.ofNat a.toNat, 1)
    else if 0xC2 ≤ a && a ≤ 0xDF then
      match rest with
      | b :: _ =>
        if isContinuation b then some (Char.ofNat ((a.toNat - 0xC0) * 64 + payload b), 2) else none
      | _ => none
    else if 0xE0 ≤ a && a ≤ 0xEF then
      match rest with
      | b :: c :: _ =>
        let low : UInt8 := if a = 0xE0 then 0xA0 else 0x80
        let high : UInt8 := if a = 0xED then 0x9F else 0xBF
        if low ≤ b && b ≤ high && isContinuation c then
          some (Char.ofNat (((a.toNat - 0xE0) * 64 + payload b) * 64 + payload c), 3)
        else none
      | _ => none
    else if 0xF0 ≤ a && a ≤ 0xF4 then
      match rest with
      | b :: c :: d :: _ =>
        let low : UInt8 := if a = 0xF0 then 0x90 else 0x80
        let high : UInt8 := if a = 0xF4 then 0x8F else 0xBF
        if low ≤ b && b ≤ high && isContinuation c && isContinuation d then
          some (Char.ofNat
            ((((a.toNat - 0xF0) * 64 + payload b) * 64 + payload c) * 64 + payload d), 4)
        else none
      | _ => none
    else none

/-- Read bytes as symbols. The number counts the bytes still to be passed over because they belong
to the character read last; the symbols read so far are kept in reverse, so that long input is read
in one pass. -/
def decodeFrom : Nat → Text → Bytes → Text
  | _, done, [] => done.reverse
  | skip + 1, done, _ :: rest => decodeFrom skip done rest
  | 0, done, b :: rest =>
    match first? (b :: rest) with
    | some (c, size) => decodeFrom (size - 1) (.char c :: done) rest
    | none => decodeFrom 0 (.stray b :: done) rest

/-- Read bytes as text; bytes of no character are kept as stray symbols. -/
def decode (bs : Bytes) : Text := decodeFrom 0 [] bs

/-- Read bytes as characters, refusing bytes that are not UTF-8. -/
def decode? (bs : Bytes) : Option (List Char) := (decode bs).chars?

end Bytewise.Utf8

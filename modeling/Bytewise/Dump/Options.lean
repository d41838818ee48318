import Bytewise.Value.Basic

/-!
# Dump options

Options of a dump come from the command line and from settings, so their values may be of any kind.
`DumpOptions.make` admits exactly the sensible ones; after that the width is known to be positive
and even, which is what the layouts and the cutting into rows rely on.
-/

namespace Bytewise

inductive Layout where
  /-- Offset, bytes in hexadecimal, and the printable characters. -/
  | canonical
  | oneByteHex
  /-- Little-endian pairs of bytes in decimal. -/
  | twoByteDecimal
  | twoByteOctal
  deriving DecidableEq, Repr

namespace Layout

/-- The name under which a layout is asked for. -/
def name : Layout → Text
  | .canonical => "canonical"
  | .oneByteHex => "one-byte-hex"
  | .twoByteDecimal => "two-byte-decimal"
  | .twoByteOctal => "two-byte-octal"

def named (t : Text) : Except Fault Layout :=
  match [canonical, oneByteHex, twoByteDecimal, twoByteOctal].find? (·.name = t) with
  | some l => .ok l
  | none => .error (.unknownLayout t)

end Layout

structure DumpOptions where
  layout : Layout := .canonical
  /-- Bytes to pass over first. -/
  skip : Nat := 0
  /-- The most bytes to dump, if there is a limit. -/
  length : Option Nat := none
  /-- Are repeated lines replaced by a mark? -/
  squeeze : Bool := true
  /-- Bytes per line. -/
  width : Nat := 16
  width_pos : 0 < width := by decide
  width_even : width % 2 = 0 := by decide

namespace DumpOptions

/-- The bytes to pass over: a whole number that is not negative. -/
def checkSkip (v : Value) : Except Fault Nat :=
  match v.int? with
  | none => .error .wrongKind
  | some n => if n < 0 then .error .invalidSkip else .ok n.toNat

/-- The limit on the bytes dumped: nothing, or a positive whole number. -/
def checkLength (v : Value) : Except Fault (Option Nat) :=
  match v with
  | .null => .ok none
  | v => match v.int? with
    | none => .error .wrongKind
    | some n => if n ≤ 0 then .error .invalidLength else .ok (some n.toNat)

/-- The bytes per line: a positive even whole number. -/
def checkWidth (v : Value) : Except Fault { w : Nat // 0 < w ∧ w % 2 = 0 } :=
  match v.int?, v with
  | some n, _ =>
    if h : 0 < n.toNat ∧ n.toNat % 2 = 0 then .ok ⟨n.toNat, h⟩
    else .error (.invalidWidth v.shown)
  | none, .real x =>
    match x.whole? with
    | some n => if 0 < n && n % 2 = 0 then .error .wrongKind else .error (.invalidWidth v.shown)
    | none => .error (.invalidWidth v.shown)
  | none, _ => .error .wrongKind

/-- Check options in the order skip, length, width, and report the first that is wrong. -/
def make (layout : Layout) (skip length : Value) (squeeze : Bool) (width : Value) :
    Except Fault DumpOptions := do
  let skip ← checkSkip skip
  let length ← checkLength length
  let ⟨width, hpos, heven⟩ ← checkWidth width
  return ⟨layout, skip, length, squeeze, width, hpos, heven⟩

end DumpOptions

end Bytewise

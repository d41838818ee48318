import Bytewise.Checksum.Listing
import Bytewise.Command.Program
import Bytewise.FileTree.TextFile

/-!
# The checksum program

`checksum` prints a line for each file, or verifies a listing. The algorithm is that of the last of
its flags, and the configured one if no flag is given. Files that cannot be read are reported and
the rest is still processed.
-/

namespace Bytewise.ChecksumProgram

open Run

def program : Text := "checksum"

inductive Key where
  | algorithm (a : Algorithm)
  | verify
  | quiet
  deriving DecidableEq, Repr

def rules : List (OptionRule Key) :=
  [⟨.algorithm .crc32, ["--crc32", "-c"], .flag⟩, ⟨.algorithm .bsd, ["--sum", "-s"], .flag⟩,
   ⟨.algorithm .adler32, ["--adler32", "-a"], .flag⟩, ⟨.verify, ["--verify", "-v"], .path⟩,
   ⟨.quiet, ["--quiet", "-q"], .flag⟩]

def algorithmOf : OptionKey Key → Option Algorithm
  | .own (.algorithm a) => some a
  | _ => none

def rejectConfigured (v : Value) : Run Algorithm := do
  complain program ("unknown algorithm in configuration: " ++ v.shown)
  exit 2

/-- The algorithm that the settings name, in any case. Bytes name none. -/
def configured (settings : Settings) : Run Algorithm :=
  match settings.get .algorithm with
  | .text name =>
    match Algorithm.named (name.map Conversion.lowerSymbol) with
    | .ok algorithm => pure algorithm
    | .error _ => rejectConfigured (.text name)
  | .bytes data => rejectConfigured (.bytes data)
  | _ => throw (.raised .notText)

/-- The algorithm to use: that of the flags, else the configured one. -/
def chooseAlgorithm (a : Arguments (OptionKey Key)) (settings : Settings) : Run Algorithm :=
  match a.lastOf algorithmOf with
  | some algorithm => pure algorithm
  | none => configured settings

/-- The lines of the listing under a name; a hyphen stands for standard input. -/
def readListing (t : FileTree) (name : Text) : Run (List Text) := do
  if name = Text.ofString "-" then
    let data ← orRaise (← readInput fun s =>
      match s.read .everything with
      | .ok (data, rest) => (.ok data, rest)
      | .error fault => (.error fault, s))
    return Text.lines (Utf8.decode data)
  else
    match t.readSymbols name with
    | .ok text => return Text.lines text
    | .error (.system cause) =>
      complainOf program name cause.reason
      exit 1
    | .error fault => throw (.raised fault)

def number (n : Nat) : Text := Text.ofChars (Numeral.digits 10 n)

/-- Verify a listing: a line for each entry, then what went wrong. -/
def verifyListing (t : FileTree) (algorithm : Algorithm) (size : ReadSize) (lines : List Text) :
    Run Unit := do
  let v := verify t (.ok algorithm) size none lines
  v.malformed.forM fun (n, message) => record ⟨.checksum, "line " ++ number n ++ ": " ++ message⟩
  if let some fault := v.stopped then throw (.raised fault)
  v.entries.forM fun e => echo e.line
  unless v.malformed.isEmpty do
    complain program ("WARNING: " ++ number v.malformed.length ++ " line(s) improperly formatted")
  let failed := (v.entries.filter (!·.ok)).length
  unless failed = 0 do
    complain program ("WARNING: " ++ number failed ++ " computed checksum(s) did NOT match")
  if failed ≠ 0 || !v.malformed.isEmpty || v.entries.isEmpty then exit 1

/-- Print a digest, or report why there is none; is there one? -/
def printDigest (algorithm : Algorithm) (quiet : Bool) : Except Fault Digest → Run Bool
  | .ok d => do
    record ⟨.checksumCommand,
      d.name ++ ": " ++ number d.size ++ " bytes, " ++ algorithm.label⟩
    echo (d.shownLine quiet)
    return true
  | .error (.unreadable path reason) => do
    complainOf program path reason
    return false
  | .error fault => throw (.raised fault)

/-- Print the checksum of one operand; was it readable? -/
def digestOperand (files : Supply) (algorithm : Algorithm) (size : ReadSize) (quiet : Bool)
    (name : Text) : Run Bool := do
  let digest ←
    if name = Text.ofString "-" then readInput (Digest.ofStream algorithm standardInput size)
    else pure (Digest.ofOpened (files.opened name) (.ok algorithm) name size)
  printDigest algorithm quiet digest

def printDigests (files : Supply) (algorithm : Algorithm) (size : ReadSize) (quiet : Bool)
    (names : List Text) : Run Unit := do
  let readable ← names.mapM (digestOperand files algorithm size quiet)
  unless readable.all id do exit 1

def work (files : Supply) (around : Surroundings) (a : Arguments (OptionKey Key))
    (settings : Settings) (algorithm : Algorithm) : Run Unit := do
  let size := ReadSize.ofValue (settings.get .chunkSize)
  match a.value? (.own .verify) with
  | some name =>
    let lines ← readListing around.tree (Path.ofText name).toText
    verifyListing around.tree algorithm size lines
  | none =>
    let operands := if a.operands.isEmpty then [Text.ofString "-"] else a.operands
    printDigests files algorithm size (a.has (.own .quiet)) operands

/-- The program, whose operands are opened in a supply. -/
def launchOn (files : Supply) (around : Surroundings) (above : Option Settings)
    (args : List Text) : Run Unit := do
  let (a, settings) ← start program rules around above args
  let algorithm ← chooseAlgorithm a settings
  work files around a settings algorithm

def launch (around : Surroundings) : Option Settings → List Text → Run Unit :=
  launchOn around.tree.supply around

end Bytewise.ChecksumProgram

import Bytewise.Command.Toolbox
import Bytewise.Package.Standard

/-!
# The executable

The executable reads what a program may need, which is the files below the working directory, the
environment and standard input, runs the program as a function on these values, and writes what came
of it. It is called by the name of one of the programs; under any other name it is the umbrella
program.
-/

namespace Bytewise.Executable

/-- Directories nested deeper than this are taken as empty; no name could reach their files. -/
def depthLimit : Nat := 2048

/-- The target of a link below the working directory, as seen from the link, and no target
otherwise. -/
def linkTarget (here target : String) (depth : Nat) : Text :=
  match Text.startsWith (Text.ofString target) (here ++ "/") with
  | true =>
    (List.replicate depth (Text.ofString "../")).flatten ++
      (Text.ofString target).drop (here.length + 1)
  | false => "/"

/-- Read what a directory entry leads to; the entry lies `depth` directories below the working one.
A file or directory that the system refuses to read is kept as unreadable. -/
def readNode (here : String) : Nat → Nat → IO.FS.DirEntry → IO (Option Node)
  | 0, _, _ => return none
  | left + 1, depth, e => do
    match (← e.path.symlinkMetadata).type with
    | .file =>
      try return some (.file {} (← IO.FS.readBinFile e.path).toList)
      catch _ => return some (.file { read := false } [])
    | .dir =>
      try
        let entries ← (← e.path.readDir).toList.mapM fun inner => do
          return (Text.ofString inner.fileName, ← readNode here left (depth + 1) inner)
        return some (.directory {} (entries.filterMap fun (name, node?) => node?.map (name, ·)))
      catch _ => return some (.directory { read := false } [])
    | .symlink =>
      try return some (.link (linkTarget here (← IO.FS.realPath e.path).toString depth))
      catch _ => return some (.link "/")
    | .other => return none

def readTree : IO FileTree := do
  let here ← IO.FS.realPath (← IO.currentDir)
  let entries ← (← here.readDir).toList.mapM fun e => do
    return (Text.ofString e.fileName, ← readNode here.toString depthLimit 0 e)
  return entries.filterMap fun (name, node?) => node?.map (name, ·)

def readEnvironment : IO Environment := do
  let names := settingsVariable :: overrides.map (·.name)
  let values ← names.mapM fun name => do
    return (← IO.getEnv name.toString).map fun value => (name, Text.ofString value)
  return values.filterMap id

/-- Read standard input to its end, unless somebody would have to type it. -/
def readInput : IO Stream := do
  let stdin ← IO.getStdin
  if ← stdin.isTty then return .ofBytes []
  let mut data := ByteArray.empty
  repeat
    let piece ← stdin.read 65536
    if piece.isEmpty then break
    data := data ++ piece
  return .ofBytes data.toList

/-- What is left to say about how a program ended. -/
def lastWords : Halt → String
  | .raised fault => fault.message.toString ++ "\n"
  | _ => ""

/-- Run the program that the executable is named for. -/
def run (args : List String) : IO UInt32 := do
  let name := (← IO.appPath).fileName.getD ""
  let program := (Program.named? name).getD .umbrella
  let around : Surroundings := ⟨.standard, ← readTree, ← readEnvironment⟩
  let outcome := program.run around (← readInput) (args.map Text.ofString)
  let (stdout, stderr) := (← IO.getStdout, ← IO.getStderr)
  stdout.write ⟨outcome.out.toArray⟩
  stdout.flush
  stderr.write ⟨outcome.err.toArray⟩
  stderr.putStr (lastWords outcome.ending)
  return outcome.status.toUInt32

end Bytewise.Executable

def main (args : List String) : IO UInt32 := Bytewise.Executable.run args

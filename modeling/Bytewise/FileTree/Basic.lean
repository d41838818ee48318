import Bytewise.Fault
import Bytewise.Path

/-!
# File trees

The files that a program can see are a value: a finite tree of regular files, directories and
symbolic links below the working directory. Nothing above the working directory is visible.

`FileTree.follow` follows a name through the tree the way a system does: part by part, resolving the
links on the way, and refusing at the first part that cannot be passed. It recurses on the number of
links still allowed and then on the parts still to be passed, so a cycle of links ends in a refusal
and not in a loop. What becomes of a part that is not there is a parameter: a reader is refused
(`FileTree.walk`), while a writer may make a file there.
-/

namespace Bytewise

/-- What the owner of a file or directory may do with it. Searching a directory means reaching what
is in it. -/
structure Access where
  read : Bool := true
  write : Bool := true
  search : Bool := true
  deriving DecidableEq, Repr

/-- A file, a directory with its entries in the order the system lists them, or a symbolic link. -/
inductive Node where
  | file (access : Access) (data : Bytes)
  | directory (access : Access) (entries : List (Text × Node))
  | link (target : Text)
  deriving Inhabited

def Node.isDirectory : Node → Bool
  | .directory _ _ => true
  | _ => false

/-- The entries of the working directory. -/
abbrev FileTree := List (Text × Node)

namespace FileTree

/-- The most symbolic links that one name may lead through. -/
def linkLimit : Nat := 40

/-- The longest part of a name, in bytes. -/
def partLimit : Nat := 255

def nameLimit : Nat := 4095

def lookup (name : Text) : List (Text × Node) → Option Node
  | [] => none
  | (n, node) :: rest => if n = name then some node else lookup name rest

def reached (t : FileTree) : List (Text × Node) → Node
  | [] => .directory {} t
  | (_, node) :: _ => node

/-- What becomes of a part that its directory does not have, given the trail to the directory, the
part, and the parts behind it. -/
abbrev WhenMissing :=
  List (Text × Node) → Text → List Text → Except SystemFault (List (Text × Node))

/-- Follow the parts of a name from a place in the tree. The trail lists the directories passed and
the node reached, innermost first, each with its name; the empty trail is the working directory. An
empty part asks for a directory and leads nowhere else. -/
def follow (t : FileTree) (missing : WhenMissing) (links : Nat) (trail : List (Text × Node))
    (todo : List Text) : Except SystemFault (List (Text × Node)) :=
  match todo with
  | [] => .ok trail
  | part :: rest =>
    match reached t trail with
    | .directory access entries =>
      if part.isEmpty then follow t missing links trail rest
      else if !access.search then .error .denied
      else if part = Text.ofString "." then follow t missing links trail rest
      else if part = Text.ofString ".." then
        match trail with
        | [] => .error .notFound
        | _ :: outer => follow t missing links outer rest
      else if partLimit < part.encode.length then .error .nameTooLong
      else match lookup part entries with
        | none => missing trail part rest
        | some (.link target) =>
          match links with
          | 0 => .error .linkLoop
          | left + 1 =>
            if target.head? = some Path.slash then .error .notFound
            else follow t missing left trail (target.splitAt Path.slash ++ rest)
        | some node => follow t missing links ((part, node) :: trail) rest
    | _ => .error .notDirectory
  termination_by (links, todo.length)

/-- Follow the parts of a name that have to be there. -/
abbrev walk (t : FileTree) : Nat → List (Text × Node) → List Text →
    Except SystemFault (List (Text × Node)) :=
  follow t fun _ _ _ => .error .notFound

/-- A node and where it stands: the names of the directories above it, then its own, without links.
-/
structure Located where
  place : List Text
  node : Node

/-- Follow a name from the working directory, if the system takes it as a name. -/
def locateWith (t : FileTree) (missing : WhenMissing) (name : Text) : Except Fault Located :=
  if name.contains (.char '\x00') then .error .nulInName
  else if name.isEmpty || name.head? = some Path.slash then .error (.system .notFound)
  else if nameLimit < name.encode.length then .error (.system .nameTooLong)
  else match follow t missing linkLimit [] (name.splitAt Path.slash) with
    | .error cause => .error (.system cause)
    | .ok trail => .ok ⟨trail.reverse.map Prod.fst, reached t trail⟩

/-- Find what a name leads to, following links. -/
def locate (t : FileTree) (name : Text) : Except Fault Located :=
  locateWith t (fun _ _ _ => .error .notFound) name

def find (t : FileTree) (name : Text) : Except Fault Node := (·.node) <$> locate t name

/-- Is there anything under this name? A name that leads nowhere, or round in circles, answers no;
any other refusal is passed on. -/
def isPresent (t : FileTree) (name : Text) : Except Fault Bool :=
  match locate t name with
  | .ok _ => .ok true
  | .error .nulInName => .ok false
  | .error (.system .notFound) => .ok false
  | .error (.system .notDirectory) => .ok false
  | .error (.system .linkLoop) => .ok false
  | .error fault => .error fault

end FileTree

def Node.content : Node → Except SystemFault Bytes
  | .file access data => if access.read then .ok data else .error .denied
  | .directory access _ => if access.read then .error .isDirectory else .error .denied
  | .link _ => .error .linkLoop

/-- Turn a refusal of the system into the report that a path cannot be read; other faults stay. -/
def Fault.asUnreadable (path : Text) : Fault → Fault
  | .system cause => .unreadable path cause.reason
  | fault => fault

namespace FileTree

/-- Open the file under a name, leaving refusals as the system words them. -/
def openRaw (t : FileTree) (name : Text) : Except Fault Bytes :=
  match find t name with
  | .error fault => .error fault
  | .ok node => node.content.mapError .system

/-- Open the file under a name; a refusal is reported with the name. -/
def openFile (t : FileTree) (name : Text) : Except Fault Bytes :=
  (openRaw t name).mapError (·.asUnreadable name)

end FileTree

end Bytewise

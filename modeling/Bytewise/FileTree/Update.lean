import Bytewise.FileTree.Basic

/-!
# Changing a file tree

Files, directories and links are put at a place, which is a list of names without links; directories
missing on the way are made. `FileTree.writeFile` is the operation that a program performs: it makes
the parent directories of a path and replaces the content of the file the path leads to.
-/

namespace Bytewise.FileTree

/-- Give a directory entry a new node; a new name goes to the end. -/
def setEntry (name : Text) (node : Node) : List (Text × Node) → List (Text × Node)
  | [] => [(name, node)]
  | (n, old) :: rest => if n = name then (n, node) :: rest else (n, old) :: setEntry name node rest

/-- Change the node at a place by a function of what is there now. Directories missing on the way
are made. -/
def update (f : Option Node → Node) : List Text → FileTree → FileTree
  | [], t => t
  | [name], t => setEntry name (f (lookup name t)) t
  | name :: next :: rest, t =>
    match lookup name t with
    | some (.directory access entries) =>
      setEntry name (.directory access (update f (next :: rest) entries)) t
    | _ => setEntry name (.directory {} (update f (next :: rest) [])) t

def put (place : List Text) (node : Node) (t : FileTree) : FileTree :=
  update (fun _ => node) place t

/-- Make a directory at a place; one that is there keeps its entries. -/
def putDirectory (place : List Text) (t : FileTree) : FileTree :=
  update (fun
    | some (.directory access entries) => .directory access entries
    | _ => .directory {} []) place t

def erase : List Text → FileTree → FileTree
  | [], t => t
  | [name], t => t.filter (·.1 != name)
  | name :: next :: rest, t =>
    match lookup name t with
    | some (.directory access entries) =>
      setEntry name (.directory access (erase (next :: rest) entries)) t
    | _ => t

def mayCreate : Node → Bool
  | .directory access _ => access.write && access.search
  | _ => false

/-- Make the directories of a path that are missing, outermost first: `done` of them are known to be
there. -/
def makeDirectories (absolute : Bool) (done : List Text) :
    List Text → FileTree → Except Fault FileTree
  | [], t => .ok t
  | part :: rest, t =>
    let path : Path := ⟨absolute, done ++ [part]⟩
    match locate t path.toText with
    | .ok ⟨_, .directory _ _⟩ => makeDirectories absolute (done ++ [part]) rest t
    | .ok _ => .error (.system (if rest.isEmpty then .alreadyExists else .notDirectory))
    | .error (.system .notFound) =>
      match locate t path.parent.toText with
      | .ok ⟨place, .directory access entries⟩ =>
        if (lookup part entries).isSome then .error (.system .alreadyExists)
        else if mayCreate (.directory access entries) then
          makeDirectories absolute (done ++ [part]) rest (putDirectory (place ++ [part]) t)
        else .error (.system .denied)
      | .ok _ => .error (.system .notDirectory)
      | .error fault => .error fault
    | .error fault => .error fault

/-- A file may be made under the last part of a name, in a directory that takes new entries. A name
that goes on behind a part that is missing leads nowhere, and one that ends there with a slash asks
for a directory. -/
def making (t : FileTree) : WhenMissing := fun trail part rest =>
  if rest.isEmpty then
    if mayCreate (reached t trail) then .ok ((part, .file {} []) :: trail) else .error .denied
  else if rest.all (·.isEmpty) then .error .isDirectory
  else .error .notFound

/-- Replace the content of the file that a path leads to, or make it; its directory must be there. A
link to a name that is missing leads to a new file under that name. -/
def replaceFile (p : Path) (data : Bytes) (t : FileTree) : Except Fault FileTree :=
  match locateWith t (making t) p.toText with
  | .ok ⟨place, .file access _⟩ =>
    if access.write then .ok (put place (.file access data) t) else .error (.system .denied)
  | .ok _ => .error (.system .isDirectory)
  | .error fault => .error fault

def writeFile (p : Path) (data : Bytes) (t : FileTree) : Except Fault FileTree := do
  let t ← makeDirectories p.absolute [] p.parent.parts t
  replaceFile p data t

end Bytewise.FileTree

import Bytewise.Ignore.Glob
import Bytewise.Value.Basic

/-!
# Ignore patterns

An ignore pattern names paths below a root in the notation of a version-control ignore file. Blanks
at its end do not count, a pattern that starts with a hash says nothing, and an exclamation mark
takes paths back that earlier patterns ignored. A pattern is cut at its slashes:

* one with a slash at the beginning or in the middle is tied to the root, any other applies at every
  depth;
* a slash at the end restricts it to directories;
* the segment `**` stands for any directories.

The last pattern that matches a path decides.
-/

namespace Bytewise

/-- Which paths a pattern applies to. -/
inductive Scope where
  | everything
  /-- Whatever does not stand directly at the root. -/
  | nested
  | matching (atoms : List Atom)
  deriving DecidableEq, Repr

def Scope.holds : Scope → Text → Bool
  | .everything, t => t.any (!Atom.isLineFeed ·)
  | .nested, t => t.any Atom.isSlash
  | .matching atoms, t => Atom.matchAll atoms t

/-- A pattern: the paths it applies to, and whether it ignores them or takes them back. -/
structure Pattern where
  ignores : Bool
  scope : Scope
  deriving DecidableEq, Repr

namespace Pattern

/-- The segment that stands for any directories. -/
def doubleStar : Text := Text.ofChars ['*', '*']

def singleStar : Text := Text.ofChars ['*']

/-- Tie a pattern to the root, or let it apply at every depth. -/
def anchor : List Text → List Text
  | [] :: rest => rest
  | [s] => if s = doubleStar then [s] else [doubleStar, s]
  | [s, []] => if s = doubleStar then [s, []] else [doubleStar, s, []]
  | segments => segments

/-- An empty last segment asks for anything inside a directory. -/
def fillLast (segments : List Text) : List Text :=
  if segments.getLast? = some [] then segments.dropLast ++ [doubleStar] else segments

/-- Several segments for any directories in a row say no more than one. -/
def collapse : List Text → List Text
  | [] => []
  | [s] => [s]
  | s :: t :: rest =>
    if s = doubleStar && t = doubleStar then collapse (t :: rest) else s :: collapse (t :: rest)

def normalize (segments : List Text) : List Text := collapse (fillLast (anchor segments))

def nameAtoms (segment : Text) : Except Glob.Defect (List Atom) :=
  if segment = singleStar then .ok [.one, .many] else Glob.parse segment

/-- The atoms of the segments behind the first; each begins with the slash before it. -/
def tailAtoms : List Text → Except Glob.Defect (List Atom)
  | [] => .ok []
  | [s] =>
    if s = doubleStar then .ok [.symbol Path.slash]
    else (fun name => .symbol Path.slash :: name ++ [.boundary]) <$> nameAtoms s
  | s :: t :: rest =>
    if s = doubleStar then (.innerDirectories :: ·) <$> tailAtoms (t :: rest)
    else do
      let name ← nameAtoms s
      let more ← tailAtoms (t :: rest)
      return .symbol Path.slash :: name ++ more

/-- The atoms of segments that begin with a name: the first has no slash before it. -/
def headAtoms : List Text → Except Glob.Defect (List Atom)
  | [] => .ok []
  | [s] => (· ++ [.boundary]) <$> nameAtoms s
  | s :: rest => do
    let name ← nameAtoms s
    let more ← tailAtoms rest
    return name ++ more

def atoms : List Text → Except Glob.Defect (List Atom)
  | [] => .ok []
  | s :: rest =>
    if s = doubleStar then (.leadingDirectories :: ·) <$> headAtoms rest else headAtoms (s :: rest)

/-- The scope of a pattern in normal form; was it restricted to directories? -/
def scopeOf (directory : Bool) (segments : List Text) : Except Glob.Defect Scope :=
  if segments = [doubleStar] then .ok (if directory then .nested else .everything)
  else if segments = [doubleStar, singleStar] then .ok .everything
  else if segments = [doubleStar, singleStar, doubleStar] then .ok .nested
  else .matching <$> atoms segments

/-- Drop the blanks at the end of a pattern, unless the last one is escaped. -/
def strip (line : Text) : Text := if Text.endsWith line "\\ " then line else line.trimEnd

/-- Split off the mark that takes paths back. -/
def polarity : Text → Bool × Text
  | .char '!' :: rest => (false, rest)
  | body => (true, body)

def saysNothing (body : Text) : Bool :=
  body.isEmpty || body.head? = some (.char '#') || body = [Path.slash]

/-- Read a pattern. A line that says nothing is no pattern, and neither is one with an open bracket.
-/
def parse (line : Text) : Except Fault (Option Pattern) :=
  let body := strip line
  if saysNothing body then .ok none
  else
    let (ignores, body) := polarity body
    let segments := Text.splitAt Path.slash body
    match normalize segments with
    | [] => .error (.badPattern line)
    | normal =>
      match scopeOf (segments.getLast? = some []) normal with
      | .ok scope => .ok (some ⟨ignores, scope⟩)
      | .error .openBracket => .ok none
      | .error .danglingEscape => .error (.badPattern line)

end Pattern

abbrev IgnoreRules := List Pattern

namespace IgnoreRules

/-- Read patterns from values. What is empty or zero is passed over; anything else must be text. -/
def ofValues (vs : List Value) : Except Fault IgnoreRules := do
  let patterns ← (vs.filter Value.truthy).mapM fun
    | .text line => Pattern.parse line
    | _ => .error .wrongKind
  return patterns.filterMap id

/-- A path as the rules see it: backslashes count as slashes, and one leading slash or `./` does not
count. -/
def normalPath (t : Text) : Text :=
  match t.map fun s => if s = .char '\\' then Path.slash else s with
  | .char '/' :: rest => rest
  | .char '.' :: .char '/' :: rest => rest
  | path => path

/-- Is a path ignored? The last pattern that applies decides. -/
def ignoresPath (rules : IgnoreRules) (path : Text) : Bool :=
  match rules.reverse.find? (·.scope.holds (normalPath path)) with
  | some pattern => pattern.ignores
  | none => false

end IgnoreRules

end Bytewise

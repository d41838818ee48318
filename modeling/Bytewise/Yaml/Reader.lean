import Bytewise.Yaml.Cursor
import Bytewise.Yaml.Node

/-!
# Reading YAML

The reader covers the part of YAML that settings use: block and flow collections, scalars of all
styles, keys with and without a mark, comments, and one document with an optional marker in front.
Anchors, tags and directives are not part of it; a text that uses them is malformed.

Block structure is read by columns. A mapping or a list starts at some column, its entries all start
at that column, and it ends at the first token further to the left. A list that is the value of a
key may start at the key's own column.

The functions call each other with less fuel each time. The fuel that `read` starts with exceeds the
number of tokens, so it never runs out.
-/

namespace Bytewise.Yaml

/-- A node, the cursor at the next token, and whether that token starts a line (or the text is at
its end). -/
structure Parsed where
  node : Node
  next : Cursor
  newLine : Bool

/-- Go on to the next token behind a node. -/
def Parsed.behind (node : Node) (after : Cursor) : Parsed :=
  let next := after.skipGap
  ⟨node, next, after.line < next.line || next.rest.isEmpty⟩

/-- Does an indicator with a blank behind it stand here? A dash starts an item of a list, a question
mark the key of a member and a colon its value. -/
def isIndicator (mark : Char) (c : Cursor) : Bool :=
  match c.rest with
  | a :: rest => a = mark && isSpaceOrEnd rest.head?
  | [] => false

/-- The cursor behind the colon of a key, if one follows on the line. In a block the colon needs a
blank behind it. -/
def colon? (flow : Bool) (c : Cursor) : Option Cursor :=
  let here := c.skipSpaces
  match here.rest with
  | ':' :: rest => if flow || isSpaceOrEnd rest.head? then some (here.forward 1) else none
  | _ => none

/-- How far from where a key starts its colon may stand. -/
def keyReach : Nat := 1024

/-- Is what starts at one cursor a key, if the other is behind the colon? It has to be on a single
line and within reach of the colon. -/
def colonInReach (start behind : Cursor) : Bool :=
  start.line = behind.line && behind.column ≤ start.column + keyReach + 1

/-- A node with the cursors in front of it and behind it. -/
structure Token where
  node : Node
  start : Cursor
  after : Cursor

/-- Read a scalar, plain or quoted. Continuation lines of a plain one start at the least column. -/
def readScalar (flow : Bool) (least : Nat) (c : Cursor) : Except DocumentFault Token :=
  match c.rest with
  | [] => .error .malformed
  | a :: rest =>
    if a = '\'' || a = '"' then do
      let s ← readQuoted (a = '"') c
      return ⟨.scalar false s.text, c, s.after⟩
    else if startsPlain flow a rest.head? then
      let s := readPlain flow least c
      .ok ⟨.scalar true s.text, c, s.after⟩
    else .error .malformed

mutual

def readFlow : Nat → Cursor → Except DocumentFault (Node × Cursor)
  | 0, _ => .error .malformed
  | fuel + 1, c =>
    match c.rest with
    | '[' :: _ => readFlowItems fuel [] (c.forward 1).skipGap
    | '\x7b' :: _ => readFlowMembers fuel [] (c.forward 1).skipGap
    | _ =>
      if c.atEnd then .error .malformed
      else do
        let t ← readScalar true 0 c
        return (t.node, t.after)

/-- Read a key or a value in a flow collection: nothing, if the entry goes on or ends here. -/
def readFlowPart : Nat → Cursor → Except DocumentFault (Node × Cursor)
  | 0, _ => .error .malformed
  | fuel + 1, c =>
    match c.rest with
    | [] => .error .malformed
    | a :: _ =>
      if a = ',' || a = ']' || a = '\x7d' || a = ':' then .ok (.null, c) else readFlow fuel c

/-- Read an entry of a flow collection: a node, and its value if it is a key. -/
def readFlowEntry : Nat → Cursor → Except DocumentFault (Node × Option Node × Cursor)
  | 0, _ => .error .malformed
  | fuel + 1, c =>
    match c.rest with
    | '?' :: _ => do
      let (key, after) ← readFlowPart fuel (c.forward 1).skipGap
      let next := after.skipGap
      match next.rest with
      | ':' :: _ => do
        let (value, after) ← readFlowPart fuel (next.forward 1).skipGap
        return (key, some value, after)
      | _ => return (key, some .null, after)
    | _ => do
      let (node, after) ← readFlow fuel c
      match colon? true after with
      | some behind =>
        if colonInReach c behind then do
          let (value, after) ← readFlowPart fuel behind.skipGap
          return (node, some value, after)
        else .error .malformed
      | none => return (node, none, after)

/-- Read the items of a flow list at the next token. A key with a value is a mapping of its own. -/
def readFlowItems : Nat → List Node → Cursor → Except DocumentFault (Node × Cursor)
  | 0, _, _ => .error .malformed
  | fuel + 1, done, c =>
    match c.rest with
    | ']' :: _ => .ok (.list done.reverse, c.forward 1)
    | _ => do
      let (node, value?, after) ← readFlowEntry fuel c
      let item := match value? with
        | some value => .ofEntries [(node, value)]
        | none => node
      let next := after.skipGap
      match next.rest with
      | ',' :: _ => readFlowItems fuel (item :: done) (next.forward 1).skipGap
      | ']' :: _ => return (.list (item :: done).reverse, next.forward 1)
      | _ => .error .malformed

def readFlowMembers : Nat → List (Node × Node) → Cursor → Except DocumentFault (Node × Cursor)
  | 0, _, _ => .error .malformed
  | fuel + 1, done, c =>
    match c.rest with
    | '\x7d' :: _ => .ok (.ofEntries done.reverse, c.forward 1)
    | _ => do
      let (key, value?, after) ← readFlowEntry fuel c
      let done := (key, value?.getD .null) :: done
      let next := after.skipGap
      match next.rest with
      | ',' :: _ => readFlowMembers fuel done (next.forward 1).skipGap
      | '\x7d' :: _ => return (.ofEntries done.reverse, next.forward 1)
      | _ => .error .malformed

end

/-- Read what may be a key in a block: a scalar or a flow collection. -/
def readToken (least : Nat) (c : Cursor) : Except DocumentFault Token :=
  if c.rest.head? = some '[' || c.rest.head? = some '\x7b' then do
    let (node, after) ← readFlow (4 * c.rest.length + 4) c
    return ⟨node, c, after⟩
  else readScalar false least c

/-- Read a block scalar as a node. What stands behind it starts a line. -/
def readBlock (folded : Bool) (least : Nat) (c : Cursor) : Except DocumentFault Parsed := do
  let s ← readBlockScalar folded least c
  return ⟨.scalar false s.text, s.after.skipGap, true⟩

inductive KeyAhead where
  /-- A key in front of its colon, with the cursor behind the colon. -/
  | simple (key : Node) (behind : Cursor)
  /-- A key behind a mark, with the cursor behind the mark. -/
  | marked (behind : Cursor)

/-- Find the key of the next member of a mapping at a column. -/
def keyAhead (column : Nat) (c : Cursor) : Except DocumentFault KeyAhead :=
  if isIndicator '?' c then .ok (.marked (c.forward 1))
  else do
    let t ← readToken (column + 1) c
    match colon? false t.after with
    | some behind =>
      if colonInReach t.start behind then return .simple t.node behind else .error .malformed
    | none => .error .malformed

mutual

/-- Read a node at a token. Continuation lines of a scalar start at the least column; a block
collection may start here if keys are allowed, that is at the start of a line or behind a dash or a
mark. -/
def readNode : Nat → Nat → Bool → Cursor → Except DocumentFault Parsed
  | 0, _, _, _ => .error .malformed
  | fuel + 1, least, keys, c =>
    if isIndicator '-' c then
      if keys then readItems fuel c.column false [] c else .error .malformed
    else if isIndicator '?' c then
      if keys then readMembers fuel c.column [] (.marked (c.forward 1)) else .error .malformed
    else if c.rest.head? = some '|' || c.rest.head? = some '>' then
      readBlock (c.rest.head? = some '>') least c
    else do
      let t ← readToken least c
      match colon? false t.after with
      | none => return .behind t.node t.after
      | some behind =>
        if keys && colonInReach t.start behind then
          readMembers fuel c.column [] (.simple t.node behind)
        else .error .malformed

/-- Read an item of a list at a column, behind its dash: nothing, if no token to the right of the
dash follows. -/
def readItem : Nat → Nat → Cursor → Except DocumentFault Parsed
  | 0, _, _ => .error .malformed
  | fuel + 1, column, behind =>
    let next := behind.skipGap
    if next.atEnd || (next.line ≠ behind.line && next.column ≤ column) then
      .ok (.behind .null behind)
    else readNode fuel (column + 1) true next

/-- Read the items of a list at a column, at the dash of the next one. A list below a key at the
key's own column (`shared`) ends where the next key starts. -/
def readItems : Nat → Nat → Bool → List Node → Cursor → Except DocumentFault Parsed
  | 0, _, _, _, _ => .error .malformed
  | fuel + 1, column, shared, done, c => do
    let item ← readItem fuel column (c.forward 1)
    let done := item.node :: done
    let c := item.next
    if c.atEnd || c.column < column then return { item with node := .list done.reverse }
    else if !item.newLine || column < c.column then .error .malformed
    else if isIndicator '-' c then readItems fuel column shared done c
    else if shared then return { item with node := .list done.reverse }
    else .error .malformed

/-- Read the key or the value of a member at a column, behind its mark or its colon: nothing, if no
token follows that can belong to it. On the same line a block collection may start behind a mark
only, or behind the colon of a key that has one (`keys`). -/
def readPart : Nat → Nat → Bool → Cursor → Except DocumentFault Parsed
  | 0, _, _, _ => .error .malformed
  | fuel + 1, column, keys, behind =>
    let next := behind.skipGap
    if next.atEnd then .ok (.behind .null behind)
    else if next.line = behind.line then readNode fuel (column + 1) keys next
    else if column < next.column then readNode fuel (column + 1) true next
    else if next.column = column && isIndicator '-' next then readItems fuel column true [] next
    else .ok (.behind .null behind)

/-- Read the members of a mapping at a column, from the key of the next one on. A key that has a
mark may be without a value. -/
def readMembers : Nat → Nat → List (Node × Node) → KeyAhead → Except DocumentFault Parsed
  | 0, _, _, _ => .error .malformed
  | fuel + 1, column, done, ahead => do
    let (key, value) ← match ahead with
      | .simple key behind => do
        let value ← readPart fuel column false behind
        pure (key, value)
      | .marked behind => do
        let key ← readPart fuel column true behind
        if key.next.column = column && isIndicator ':' key.next then do
          let value ← readPart fuel column true (key.next.forward 1)
          pure (key.node, value)
        else pure (key.node, { key with node := .null })
    let done := (key, value.node) :: done
    let c := value.next
    if c.atEnd || c.column < column then return { value with node := .ofEntries done.reverse }
    else if !value.newLine || column < c.column then .error .malformed
    else do
      let ahead ← keyAhead column c
      readMembers fuel column done ahead

end

/-- The characters that a YAML text may hold. -/
def isAllowed (c : Char) : Bool :=
  let n := c.toNat
  n = 0x09 || n = 0x0A || n = 0x0D || (0x20 ≤ n && n ≤ 0x7E) || n = 0x85 ||
    (0xA0 ≤ n && n ≤ 0xD7FF) || (0xE000 ≤ n && n ≤ 0xFFFD) || 0x10000 ≤ n

def endsDocument (c : Cursor) : Bool :=
  c.rest.isEmpty || (c.isMarker "..." && (c.forward 3).skipGap.rest.isEmpty)

/-- Take a document apart. In an empty one nothing stands. -/
def parse (cs : List Char) : Except DocumentFault Node :=
  if !cs.all isAllowed then .error .malformed
  else
    let cs := match cs with
      | '\ufeff' :: rest => rest
      | cs => cs
    let first := (Cursor.mk cs 0 0).skipGap
    let marked := first.isMarker "---"
    let start := if marked then (first.forward 3).skipGap else first
    let keys := !marked || start.line ≠ first.line
    if start.atEnd then
      if endsDocument start then .ok .null else .error .malformed
    else do
      let p ← readNode (4 * cs.length + 4) 0 keys start
      if endsDocument p.next && (p.newLine || p.next.rest.isEmpty) then return p.node
      else .error .malformed

def read (cs : List Char) : Except DocumentFault Value := do
  let node ← parse cs
  node.value

end Bytewise.Yaml

import Bytewise.Yaml.Scalar

/-!
# Reading scalars

The structure of a YAML text is told by columns and lines, so the reader carries a cursor: the text
ahead with the line and the column it starts at. This module passes over gaps and reads scalars; how
they are put together is the matter of the reader.

A plain scalar may run over several lines as long as its continuation is indented beyond the block
it stands in; a quoted one may run over any lines. In both a single line break reads as a space, and
of several the first is dropped. A block scalar is the lines below its mark that are indented far
enough, with their breaks; folded, it treats breaks between lines like the others.
-/

namespace Bytewise.Yaml

structure Cursor where
  rest : List Char
  line : Nat
  column : Nat

/-- A line break as it is read: the older ones are line feeds. -/
def breakChar (c : Char) : Char := if c.toNat = 0x85 then '\n' else c

/-- A blank, a line break, or the end of the text. -/
def isSpaceOrEnd : Option Char → Bool
  | none => true
  | some c => c = ' ' || c = '\t' || isBreak c

namespace Cursor

/-- The cursor behind a number of characters, none of which ends a line. -/
def forward (c : Cursor) (count : Nat) : Cursor :=
  ⟨c.rest.drop count, c.line, c.column + count⟩

def skipSpaces (c : Cursor) : Cursor := c.forward (c.rest.takeWhile (· = ' ')).length

def skipGapFrom (inComment : Bool) (line column : Nat) : List Char → Cursor
  | [] => ⟨[], line, column⟩
  | c :: rest =>
    if isBreak c then skipGapFrom false (line + 1) 0 rest
    else if inComment then skipGapFrom true line (column + 1) rest
    else if c = ' ' then skipGapFrom false line (column + 1) rest
    else if c = '#' then skipGapFrom true line (column + 1) rest
    else ⟨c :: rest, line, column⟩

/-- Pass over spaces, comments and line breaks up to the next token. -/
def skipGap (c : Cursor) : Cursor := skipGapFrom false c.line c.column c.rest

/-- Does a document marker stand here, at the start of a line? -/
def isMarker (word : String) (c : Cursor) : Bool :=
  c.column = 0 && word.toList.isPrefixOf c.rest && isSpaceOrEnd (c.rest.drop word.length).head?

/-- Is there nothing more in this document? -/
def atEnd (c : Cursor) : Bool := c.rest.isEmpty || c.isMarker "---" || c.isMarker "..."

end Cursor

structure Scanned where
  text : List Char
  after : Cursor

/-! ## Plain scalars -/

/-- May a plain scalar begin with this character, followed by that? -/
def startsPlain (flow : Bool) (c : Char) (next : Option Char) : Bool :=
  if c = '-' then !isSpaceOrEnd next
  else if c = '?' || c = ':' then !flow && !isSpaceOrEnd next
  else !(",[]\x7b\x7d#&*!|>'\"%@\x60\t".toList.contains c)

/-- Characters with a meaning of their own inside flow collections. -/
def isFlowMark (c : Char) : Bool := ",[]\x7b\x7d".toList.contains c

/-- Does a word of a plain scalar end before this character, followed by that? -/
def endsWord (flow : Bool) (c : Char) (next : Option Char) : Bool :=
  isSpaceOrEnd (some c) || (c = ':' && (isSpaceOrEnd next || (flow && next.any isFlowMark))) ||
    (flow && (isFlowMark c || c = '?'))

def wordLength (flow : Bool) : List Char → Nat
  | [] => 0
  | c :: rest => if endsWord flow c rest.head? then 0 else wordLength flow rest + 1

/-- Line breaks and the spaces around them, up to the next word: the breaks in reverse and the
cursor there. -/
def skipBreaks (breaks : List Char) (line column : Nat) : List Char → List Char × Cursor
  | [] => (breaks, ⟨[], line, column⟩)
  | c :: rest =>
    if isBreak c then
      let next : Cursor := ⟨rest, line + 1, 0⟩
      if next.isMarker "---" || next.isMarker "..." then (breakChar c :: breaks, next)
      else skipBreaks (breakChar c :: breaks) (line + 1) 0 rest
    else if c = ' ' then skipBreaks breaks line (column + 1) rest
    else (breaks, ⟨c :: rest, line, column⟩)

/-- What line breaks in a scalar read as: a single one is a space, of several the first is dropped.
-/
def foldBreaks (breaks : List Char) : List Char :=
  match breaks with
  | [] => []
  | ['\n'] => [' ']
  | '\n' :: more => more
  | breaks => breaks

/-- What stands between two words of a plain scalar, and the cursor behind it. -/
def plainGap (c : Cursor) : List Char × Cursor :=
  let spaces := c.rest.takeWhile (· = ' ')
  let here := c.forward spaces.length
  match here.rest with
  | b :: _ =>
    if isBreak b then
      let (breaks, after) := skipBreaks [] here.line here.column here.rest
      (foldBreaks breaks.reverse, after)
    else (spaces, here)
  | [] => (spaces, here)

/-- Read the words of a plain scalar; `done` is what was read before, and `gap` what stands between.
The cursor returned is that behind the last word. -/
def plainFrom (flow : Bool) (least : Nat) : Nat → List Char → List Char → Cursor → Scanned
  | 0, done, _, c => ⟨done, c⟩
  | fuel + 1, done, gap, c =>
    let size := wordLength flow c.rest
    if size = 0 then ⟨done, c⟩
    else
      let text := done ++ gap ++ c.rest.take size
      let behind := c.forward size
      let (gap, next) := plainGap behind
      if gap.isEmpty || next.rest.head? = some '#' || (!flow && next.column < least) ||
          next.atEnd || wordLength flow next.rest = 0 then ⟨text, behind⟩
      else plainFrom flow least fuel text gap next

/-- Read a plain scalar. Continuation lines start at the least column or beyond. -/
def readPlain (flow : Bool) (least : Nat) (c : Cursor) : Scanned :=
  plainFrom flow least (c.rest.length + 1) [] [] c

/-! ## Quoted scalars -/

def shortEscape? : Char → Option Char
  | '0' => some '\x00'
  | 'a' => some '\x07'
  | 'b' => some '\x08'
  | 't' => some '\t'
  | '\t' => some '\t'
  | 'n' => some '\n'
  | 'v' => some '\x0b'
  | 'f' => some '\x0c'
  | 'r' => some '\r'
  | 'e' => some '\x1b'
  | ' ' => some ' '
  | '"' => some '"'
  | '\\' => some '\\'
  | '/' => some '/'
  | 'N' => some '\u0085'
  | '_' => some '\u00a0'
  | 'L' => some '\u2028'
  | 'P' => some '\u2029'
  | _ => none

/-- The number of hexadecimal digits of an escape by number. -/
def escapeWidth? : Char → Option Nat
  | 'x' => some 2
  | 'u' => some 4
  | 'U' => some 8
  | _ => none

/-- Line breaks inside a quoted scalar with the blanks around them; the breaks in reverse. There is
no such gap if a document marker stands in it. -/
def quotedBreaks? (breaks : List Char) (line column : Nat) : List Char → Option (List Char × Cursor)
  | [] => some (breaks, ⟨[], line, column⟩)
  | c :: rest =>
    if isBreak c then
      let next : Cursor := ⟨rest, line + 1, 0⟩
      if next.isMarker "---" || next.isMarker "..." then none
      else quotedBreaks? (breakChar c :: breaks) (line + 1) 0 rest
    else if c = ' ' || c = '\t' then quotedBreaks? breaks line (column + 1) rest
    else some (breaks, ⟨c :: rest, line, column⟩)

/-- Read a quoted scalar behind its opening quote; what was read so far is kept in reverse. -/
def quotedFrom (double : Bool) : Nat → List Char → Cursor → Except DocumentFault Scanned
  | 0, _, _ => .error .malformed
  | fuel + 1, done, c =>
    let quote := if double then '"' else '\''
    match c.rest with
    | [] => .error .malformed
    | a :: rest =>
      if a = quote then
        if !double && rest.head? = some '\'' then
          quotedFrom double fuel ('\'' :: done) (c.forward 2)
        else .ok ⟨done.reverse, c.forward 1⟩
      else if double && a = '\\' then
        match rest with
        | [] => .error .malformed
        | e :: more =>
          match shortEscape? e, escapeWidth? e with
          | some x, _ => quotedFrom double fuel (x :: done) (c.forward 2)
          | none, some width =>
            let ds := more.take width
            if ds.length = width && ds.all (Numeral.isDigit 16) then
              let n := Numeral.value 16 ds
              if 0x10FFFF < n then .error (.refused (.noCharacter n))
              else
                let x := if 0xD800 ≤ n && n ≤ 0xDFFF then '\ufffd' else Char.ofNat n
                quotedFrom double fuel (x :: done) (c.forward (2 + width))
            else .error .malformed
          | none, none =>
            if isBreak e then
              match quotedBreaks? [] c.line (c.column + 1) rest with
              | some (breaks, after) =>
                quotedFrom double fuel (breaks.dropLast ++ done) after
              | none => .error .malformed
            else .error .malformed
      else if a = ' ' || a = '\t' || isBreak a then
        let blanks := c.rest.takeWhile fun b => b = ' ' || b = '\t'
        let here := c.forward blanks.length
        match here.rest with
        | [] => .error .malformed
        | b :: _ =>
          if isBreak b then
            match quotedBreaks? [] here.line here.column here.rest with
            | some (breaks, after) =>
              quotedFrom double fuel ((foldBreaks breaks.reverse).reverse ++ done) after
            | none => .error .malformed
          else quotedFrom double fuel (blanks.reverse ++ done) here
      else quotedFrom double fuel (a :: done) (c.forward 1)

def readQuoted (double : Bool) (c : Cursor) : Except DocumentFault Scanned :=
  quotedFrom double (c.rest.length + 1) [] (c.forward 1)

/-! ## Block scalars -/

/-- What becomes of the line breaks at the end of a block scalar. -/
inductive Ending where
  /-- None of them belongs to the text. -/
  | strip
  /-- The first one does. -/
  | clip
  /-- All of them do. -/
  | keep

/-- The mark of an ending, at the front. -/
def ending? : List Char → Option Ending × List Char
  | '+' :: rest => (some .keep, rest)
  | '-' :: rest => (some .strip, rest)
  | rest => (none, rest)

/-- An indentation of one to nine, at the front. -/
def increment? : List Char → Option Nat × List Char
  | [] => (none, [])
  | c :: rest =>
    if Numeral.isDigit 10 c && c ≠ '0' then (some (Numeral.value 10 [c]), rest)
    else (none, c :: rest)

/-- The rest of a line without text: what stands on the lines below it. -/
def belowLine? (cs : List Char) : Option (List Char) :=
  let behind := cs.dropWhile (· = ' ')
  let behind := if behind.head? = some '#' then behind.dropWhile (!isBreak ·) else behind
  match behind with
  | [] => some []
  | c :: rest => if isBreak c then some rest else none

/-- What stands behind the mark of a block scalar on its line. -/
structure BlockHeader where
  increment? : Option Nat
  ending : Ending
  /-- The lines below. -/
  below : List Char

/-- Read the rest of the line on which a block scalar starts: an indentation and an ending, in any
order, both if they are given, and a comment. -/
def blockHeader? (cs : List Char) : Option BlockHeader :=
  let (before, cs) := ending? cs
  let (increment, cs) := increment? cs
  let (behind, cs) := if before.isSome then (none, cs) else ending? cs
  match cs with
  | [] => some ⟨increment, (before.or behind).getD .clip, []⟩
  | c :: _ =>
    if c = ' ' || isBreak c then do
      let below ← belowLine? cs
      return ⟨increment, (before.or behind).getD .clip, below⟩
    else none

/-- The furthest column that spaces reach in front of the first text. -/
def furthestIndent (column furthest : Nat) : List Char → Nat
  | [] => furthest
  | c :: rest =>
    if isBreak c then furthestIndent 0 furthest rest
    else if c = ' ' then furthestIndent (column + 1) (max furthest (column + 1)) rest
    else furthest

/-- Line breaks in a block scalar with the indentation behind them; the breaks in reverse. -/
def blockBreaks (indent : Nat) (breaks : List Char) (line column : Nat) :
    List Char → List Char × Cursor
  | [] => (breaks, ⟨[], line, column⟩)
  | c :: rest =>
    if isBreak c then blockBreaks indent (breakChar c :: breaks) (line + 1) 0 rest
    else if c = ' ' && column < indent then blockBreaks indent breaks line (column + 1) rest
    else (breaks, ⟨c :: rest, line, column⟩)

/-- Does a line start with a blank? Such lines are not folded. -/
def startsBlank : List Char → Bool
  | [] => false
  | c :: _ => c = ' ' || c = '\t'

/-- The lines of a block scalar: their text, the break behind the last one and those behind that. -/
structure BlockLines where
  text : List Char
  lastBreak : List Char
  breaks : List Char
  after : Cursor

/-- Read the lines of a block scalar at its indentation; `done` is what was read before. In a folded
one a single break between lines that do not start with a blank is a space, and of several the first
is dropped. -/
def blockLines (folded : Bool) (indent : Nat) : Nat → BlockLines → BlockLines
  | 0, done => done
  | fuel + 1, done =>
    let c := done.after
    if c.column ≠ indent || c.rest.isEmpty then done
    else
      let line := c.rest.takeWhile (!isBreak ·)
      let text := done.text ++ done.breaks ++ line
      match c.rest.drop line.length with
      | [] => ⟨text, [], [], c.forward line.length⟩
      | b :: below =>
        let (breaks, next) := blockBreaks indent [] (c.line + 1) 0 below
        let goesOn := next.column = indent && !next.rest.isEmpty
        let folds := folded && breakChar b = '\n' && !startsBlank line && !startsBlank next.rest
        let joint :=
          if !goesOn then []
          else if !folds then [breakChar b]
          else if breaks.isEmpty then [' ']
          else []
        blockLines folded indent fuel ⟨text ++ joint, [breakChar b], breaks.reverse, next⟩

/-- Read a block scalar at its mark. Its lines start at the least column or beyond, and never at the
start of a line. -/
def readBlockScalar (folded : Bool) (least : Nat) (c : Cursor) : Except DocumentFault Scanned :=
  match blockHeader? (c.rest.drop 1) with
  | none => .error .malformed
  | some header =>
    let least := max least 1
    let indent := match header.increment? with
      | some n => least + n - 1
      | none => max least (furthestIndent 0 0 header.below)
    let (breaks, first) := blockBreaks indent [] (c.line + 1) 0 header.below
    let lines := blockLines folded indent (header.below.length + 1) ⟨[], [], breaks.reverse, first⟩
    let ending := match header.ending with
      | .strip => []
      | .clip => lines.lastBreak
      | .keep => lines.lastBreak ++ lines.breaks
    .ok ⟨lines.text ++ ending, lines.after⟩

end Bytewise.Yaml

import Bytewise.Text.Line

/-!
# Error lines

An error line is `program: message`. It is written for a terminal: characters that would move the
cursor are dropped and tabs are widened to the next multiple of eight columns. A bracket that could
be taken for a style is shown as it stands; before any other opening bracket a backslash is taken
for its escape and dropped, and a single backslash at the end of the message is doubled.
-/

namespace Bytewise.ErrorLine

/-- The characters that may follow the opening bracket of a style. -/
def beginsStyle : Symbol → Bool
  | .char c => ('a' ≤ c && c ≤ 'z') || c == '#' || c == '/' || c == '@'
  | .stray _ => false

/-- Is a bracket closed before another one opens? -/
def closes : Text → Bool
  | [] => false
  | .char ']' :: _ => true
  | .char '[' :: _ => false
  | _ :: rest => closes rest

/-- Could what follows an opening bracket be a style? -/
def isStyle : Text → Bool
  | s :: rest => beginsStyle s && closes rest
  | [] => false

/-- Drop the backslash before each bracket that opens no style. -/
def dropEscapes : Text → Text
  | .char '\\' :: .char '[' :: rest =>
    if isStyle rest then .char '\\' :: .char '[' :: dropEscapes rest
    else .char '[' :: dropEscapes rest
  | s :: rest => s :: dropEscapes rest
  | [] => []

/-- Double a single backslash at the end. -/
def doubleLast (t : Text) : Text :=
  if Text.endsWith t "\\" && !Text.endsWith t "\\\\" then t ++ "\\" else t

/-- The characters that a terminal would not show: bell, backspace, vertical tab, form feed and
carriage return. -/
def isMovement (s : Symbol) : Bool :=
  [.char '\x07', .char '\x08', .char '\x0b', .char '\x0c', .char '\r'].contains s

/-- Widen tabs to the next multiple of eight columns, counting from a column. -/
def widenTabs : Nat → Text → Text
  | _, [] => []
  | column, .char '\t' :: rest =>
    let width := 8 - column % 8
    List.replicate width (.char ' ') ++ widenTabs (column + width) rest
  | _, .char '\n' :: rest => .char '\n' :: widenTabs 0 rest
  | column, s :: rest => s :: widenTabs (column + 1) rest

/-- A text as it is written to a terminal. -/
def onTerminal (t : Text) : Text := widenTabs 0 (t.filter (!isMovement ·))

def line (program message : Text) : Text :=
  onTerminal (program ++ ": " ++ dropEscapes (doubleLast message)) ++ "\n"

end Bytewise.ErrorLine

import Bytewise.Survey.Table
import Bytewise.Text.Line

/-!
# Drawing tables

A table is drawn in a box, in which a column is as wide as its longest entry.
-/

namespace Bytewise

namespace Column

/-- The width of a column: that of its longest entry. -/
def width (c : Column) : Nat :=
  ((c.header :: c.footer :: c.cells).map List.length).foldl max 0

def pad (c : Column) (entry : Text) : Text :=
  " " ++ (if c.right then entry.alignRight c.width else entry.alignLeft c.width) ++ " "

end Column

namespace Table

/-- A line of the box: one piece for each column, between marks. -/
def boxLine (left middle right : String) (pieces : List Text) : Text :=
  left ++ Text.join middle pieces ++ right ++ "\n"

/-- A horizontal line of the box. -/
def rule (t : Table) (left : String) (fill : Char) (middle right : String) : Text :=
  boxLine left middle right (t.columns.map fun c => List.replicate (c.width + 2) (.char fill))

/-- The title, in the middle of the width; a space that is left over goes behind it. -/
def titleLine (t : Table) (width : Nat) : Text :=
  let before := (width - t.title.length) / 2
  Text.alignLeft width (List.replicate before (.char ' ') ++ t.title) ++ "\n"

def width (t : Table) : Nat := t.columns.foldl (fun n c => n + c.width + 3) 1

def cellRow (t : Table) (i : Nat) : Text :=
  boxLine "│" "│" "│" (t.columns.map fun c => c.pad (c.cells.getD i []))

def draw (t : Table) : Text :=
  let rows := (t.columns.map fun c => c.cells.length).foldl max 0
  t.titleLine t.width ++
    t.rule "┏" '━' "┳" "┓" ++
    boxLine "┃" "┃" "┃" (t.columns.map fun c => c.pad c.header) ++
    t.rule "┡" '━' "╇" "┩" ++
    (List.range rows).flatMap t.cellRow ++
    t.rule "├" '─' "┼" "┤" ++
    boxLine "│" "│" "│" (t.columns.map fun c => c.pad c.footer) ++
    t.rule "└" '─' "┴" "┘"

end Table

end Bytewise

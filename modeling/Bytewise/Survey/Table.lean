import Bytewise.Text.Symbol

/-!
# Tables

A table has columns with a header, cells and a footer, and a title above them. How it is drawn is
another matter.
-/

namespace Bytewise

namespace Text

def alignLeft (width : Nat) (t : Text) : Text := t ++ List.replicate (width - t.length) (.char ' ')

def alignRight (width : Nat) (t : Text) : Text := List.replicate (width - t.length) (.char ' ') ++ t

end Text

structure Column where
  header : Text
  /-- Are the entries aligned to the right? -/
  right : Bool
  footer : Text
  cells : List Text
  deriving DecidableEq, Repr

structure Table where
  title : Text
  columns : List Column
  deriving DecidableEq, Repr

end Bytewise

import Bytewise.Text.Symbol

/-!
# Style sequences

An escape character and an opening bracket, behind which digits, semicolons and question marks may
stand, and a letter that ends it all: to a terminal such a sequence sets a style or moves the
cursor. A line that is not written to a terminal is written without them. What is left when they are
gone is not looked at again, so that two pieces of a sequence may come to stand side by side.
-/

namespace Bytewise

/-- What may stand between the bracket of a style sequence and the letter at its end. -/
def isStyleArgument : Symbol → Bool
  | .char c => c.isDigit || c == ';' || c == '?'
  | .stray _ => false

def endsStyle : Symbol → Bool
  | .char c => c.isAlpha
  | .stray _ => false

/-- The length of the style sequence in front, which is zero if there is none. -/
def styleLength : Text → Nat
  | .char '\x1b' :: .char '[' :: rest =>
    match rest.dropWhile isStyleArgument with
    | s :: _ => if endsStyle s then (rest.takeWhile isStyleArgument).length + 3 else 0
    | [] => 0
  | _ => 0

namespace Text

/-- Drop the style sequences; the given number of symbols is what is left of one that was begun. -/
def dropStyles : Nat → Text → Text
  | _, [] => []
  | left + 1, _ :: rest => dropStyles left rest
  | 0, s :: rest =>
    match styleLength (s :: rest) with
    | 0 => s :: dropStyles 0 rest
    | length + 1 => dropStyles length rest

/-- A text as it is written where no terminal is. -/
def unstyled (t : Text) : Text := t.dropStyles 0

end Text

end Bytewise

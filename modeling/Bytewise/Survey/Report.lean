import Bytewise.Json.Writer
import Bytewise.Survey.Table
import Bytewise.Survey.Totals

/-!
# Reports

The totals of a survey are reported as fixed-width text, as JSON, or as a table.
-/

namespace Bytewise

inductive ReportForm where
  | text
  | table
  | json
  deriving DecidableEq, Repr

namespace Report

def number (n : Int) : Text := Text.ofChars (Numeral.decimal n)

/-! ## Text -/

def textHeader : Text := "Language     Files     Code  Comments    Blank    Total"

def textRule : Text := List.replicate 54 (.char '-')

def textRow (t : Totals) : Text :=
  let field (width : Nat) (n : Int) : Text := (number n).alignRight width
  Text.join " " [t.name.alignLeft 10, field 7 t.files, field 8 t.code, field 9 t.comment,
    field 8 t.blank, field 8 t.total]

/-- The report as text: a row for each language between rules, and a row for all of them. -/
def text (a : Aggregate) : Text :=
  let rows := a.languages.map textRow
  ([[], textHeader, textRule] ++ rows ++ [textRule, textRow a.grandTotal]).flatMap (· ++ "\n")

/-! ## JSON -/

def totalsValue (t : Totals) : Value :=
  .map [("language", .text t.name), ("files", .int t.files), ("code", .int t.code),
    ("comment", .int t.comment), ("blank", .int t.blank), ("total", .int t.total),
    ("bytes", .int t.bytes)]

def failureValue (failure : Text × Text) : Value :=
  .map [("path", .text failure.1), ("reason", .text failure.2)]

/-- The report as JSON. -/
def json (a : Aggregate) (failures : List (Text × Text)) : List Char :=
  Json.document (.map [("languages", .list (a.languages.map totalsValue)),
    ("total", totalsValue a.grandTotal), ("errors", .list (failures.map failureValue))])

/-! ## Tables -/

def table (a : Aggregate) : Table :=
  let grand := a.grandTotal
  let numbers (header : Text) (get : Totals → Int) : Column :=
    ⟨header, true, number (get grand), a.languages.map fun t => number (get t)⟩
  ⟨"Lines of Code",
    [⟨"Language", false, grand.name, a.languages.map (·.name)⟩,
     numbers "Files" (·.files), numbers "Code" (·.code), numbers "Comments" (·.comment),
     numbers "Blank" (·.blank), numbers "Total" (·.total)]⟩

end Report

end Bytewise

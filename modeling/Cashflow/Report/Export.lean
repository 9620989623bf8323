import Cashflow.Document.Json.Writer
import Cashflow.Report.Summary
import Cashflow.Text.Encoding

/-!
# Exports

* `Run.exportJson` : the record of a run with its key figures, rounded, as indented JSON;
* `Run.exportLedger` : one comma-separated row per firing, rows ended by carriage return and line
  feed. A field with a comma, a quote or a line end is quoted, quotes inside written twice. The text
  ends before the first row that cannot be encoded (`Run.ledgerFault?`).
-/

namespace Cashflow

/-! ## Comma-separated rows -/

namespace Ledger

def needsQuotes (c : Char) : Bool := c = ',' || c = '"' || c = '\r' || c = '\n'

def doubled : List Char → List Char
  | [] => []
  | c :: r => if c = '"' then '"' :: '"' :: doubled r else c :: doubled r

def field (s : String) : String :=
  if s.toList.any needsQuotes then String.ofList ('"' :: doubled s.toList ++ ['"']) else s

def row (fields : List String) : String :=
  String.intercalate "," (fields.map field) ++ "\r\n"

def header : List String := ["month", "event", "type", "recurrence", "amount", "balance"]

end Ledger

namespace Run

/-- A firing with the closing balance of its month, if that is known. -/
def ledgerRow (r : Run Float) (month : String) (e : Event Float) : List String :=
  [month, e.name, e.type, e.recurrence, Decimal.text e.signedAmount,
    ((r.balances.get? month).map Decimal.text).getD ""]

def ledgerRows (r : Run Float) : List String :=
  Ledger.row Ledger.header :: r.firings.map fun f => Ledger.row (r.ledgerRow f.1 f.2)

def exportLedger (r : Run Float) : String :=
  String.join (r.ledgerRows.takeWhile fun row => (Text.encodingFault? row).isNone)

def ledgerFault? (r : Run Float) : Option Text.EncodingFault :=
  r.ledgerRows.findSome? Text.encodingFault?

/-! ## JSON -/

/-- Why a run has no record. -/
inductive ExportFault where
  /-- A month that no frame has a row for. -/
  | month (key : MisplacedKey)
  | figure (fault : ValueFault)

/-- A figure to `places` places; what is no number stays. -/
def roundedFigure (places : Int) : Value → Except ValueFault Value
  | .float x =>
    match Decimal.roundTo? x places with
    | some y => .ok (.float y)
    | none => .error .roundedTooLarge
  | v => .ok v

/-- The key figures, each to `places` places. -/
def roundedFigures (r : Run Float) (places : Int) : Except ValueFault (List (String × Value)) :=
  r.figures.mapM fun f => (roundedFigure places f.2).map fun v => (f.1, v)

/-- The record with the key figures; some of these are taken from the monthly frame. -/
def exportValue (r : Run Float) (places : Int) : Except ExportFault Value := do
  discard (r.monthlyFrame.mapError .month)
  let figures ← (r.roundedFigures places).mapError .figure
  return .mapping (r.recordFields ++ [("summary", .mapping figures)])

/-- The places to which figures are rounded by default. -/
def figurePlaces : Int := 2

def exportJson (r : Run Float) (places : Int) : Except ExportFault String :=
  (r.exportValue places).map Json.indented

end Run

end Cashflow

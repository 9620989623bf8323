import Cashflow.Report.Frame
import Cashflow.Decimal.Layout

/-!
# Frames as tables

The labels stand left-aligned in front, then every column right-aligned to its widest cell and one
more than its head. The name of the labels has a line of its own under the heads. Amounts have two
places and commas between thousands, counts are plain. A frame without rows is described in three
lines.
-/

namespace Cashflow.Frame

def amountText (x : Float) : String :=
  match Decimal.read x with
  | .undefined => "NaN"
  | _ => Decimal.grouped 2 x

def countText : Option (Count Float) → String
  | some (.whole n) => Value.intText n
  | some (.amount x) => amountText x
  | none => amountText Decimal.undefined

def cellTexts : Cells Float → List String
  | .amounts xs => xs.map amountText
  | .counts ns => ns.map Value.intText
  | .mixed cells => cells.map countText

def blanks (n : Nat) : String := String.ofList (List.replicate n ' ')

def padLeft (w : Nat) (s : String) : String := blanks (w - s.length) ++ s

def padRight (w : Nat) (s : String) : String := s ++ blanks (w - s.length)

def widest (xs : List String) : Nat := xs.foldl (fun w s => max w s.length) 0

/-- A column as its head and its cells, all of one width. -/
def tableColumn (c : Column Float) : String × Array String :=
  let cells := cellTexts c.cells
  let w := max (c.name.length + 1) (widest cells)
  (padLeft w c.name, (cells.map (padLeft w)).toArray)

def emptyTable (f : Frame Float) : String :=
  "Empty DataFrame\nColumns: [" ++ String.intercalate ", " (f.columns.map Column.name) ++
    "]\nIndex: []"

def table (indexName : String) (f : Frame Float) : String :=
  if f.periods.isEmpty then f.emptyTable
  else
    let w := widest (indexName :: f.labels)
    let columns := f.columns.map tableColumn
    let line label (cells : List String) := String.intercalate " " (padRight w label :: cells)
    let rows := f.labels.zipIdx.map fun l => line l.1 (columns.map fun c => (c.2[l.2]?).getD "")
    let heads := line "" (columns.map Prod.fst)
    String.intercalate "\n" (heads :: padRight heads.length indexName :: rows)

end Cashflow.Frame

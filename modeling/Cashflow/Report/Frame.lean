import Cashflow.Report.Frequency
import Cashflow.Report.Group
import Cashflow.Report.Period
import Cashflow.Report.Total
import Cashflow.Report.Word
import Cashflow.Simulation.Run

/-!
# Frames

A frame is a table of one row per period and named columns, each of amounts or of whole counts. The
monthly frame of a run has the inflows, outflows, net cashflow and balance of every month and the
number of its events; a month whose key no report can place leaves it without a frame. A row whose
key names no month lies in no period.

`Frame.aggregate` gathers rows into coarser periods, in chronological order and only those that
occur: flows are summed, other columns keep the last value that is there. A missing cell adds nothing
to a sum; a last of nothing is missing. Rows outside of all periods are left out. A flow column is
summed in pairs when nothing is missing in it and the periods stand in order, else with compensation;
for exact numbers that makes no difference.

A column given cell by cell (`Cells.ofNumbers`) is one of counts, if all cells are whole, or one of
amounts; but whole numbers that no word holds together stay what they are beside the amounts, and so
do cells that are all missing. Such a mixed column is summed from left to right.
-/

namespace Cashflow

/-- A number of either sort. -/
inductive Count (α : Type) where
  | whole (n : Int)
  | amount (x : α)

/-- The cells of a column, one per row. -/
inductive Cells (α : Type) where
  | amounts (xs : List α)
  | counts (ns : List Int)
  | mixed (cells : List (Option (Count α)))

structure Column (α : Type) where
  name : String
  cells : Cells α

structure Frame (α : Type) where
  frequency : Frequency
  /-- The last months of the periods, row by row; `none` is a row outside of all periods. -/
  periods : List (Option Int)
  columns : List (Column α)

def flowColumns : List String := ["inflows", "outflows", "net_cashflow", "event_count"]

def countColumn : String := "event_count"

def isFlow (column : String) : Bool := flowColumns.contains column

/-! ## Cells of groups -/

namespace Count
variable {α : Type}

def whole? : Count α → Option Int
  | .whole n => some n
  | .amount _ => none

variable [Amount α]

def toAmount : Count α → α
  | .whole n => Amount.ofInt n
  | .amount x => x

def isMissing : Count α → Bool
  | .whole _ => false
  | .amount x => Amount.isMissing x

/-- Whole numbers are added exactly; a sum with an amount is an amount. -/
def add : Count α → Count α → Count α
  | .whole m, .whole n => .whole (m + n)
  | a, b => .amount (a.toAmount + b.toAmount)

end Count

namespace Cells
variable {α : Type} [Amount α]

def amounts? : Cells α → Option (List α)
  | .amounts xs => some xs
  | .counts _ | .mixed _ => none

/-- Numbers as they come, `none` for what is missing. -/
def ofNumbers (missing : α) (cells : List (Option (Count α))) : Cells α :=
  match cells.mapM fun c => c.bind Count.whole? with
  | some ns => .counts ns
  | none =>
    if cells.all Option.isNone then .mixed cells
    else match Word.ofColumn (cells.filterMap fun c => c.bind Count.whole?) with
      | .unbounded => .mixed cells
      | _ => .amounts (cells.map fun c => (c.map Count.toAmount).getD missing)

/-- How the amounts of a group become one. -/
inductive Combining where
  | led
  | compensated
  | last

/-- The way that suits a column over rows of the given periods. -/
def combining (flow : Bool) (rows : List (Option Int)) (xs : List α) : Combining :=
  let placed := rows.filterMap id
  if !flow then .last
  else if xs.any Amount.isMissing ∨ placed.length < rows.length then .compensated
  else if (placed.zip placed.tail).all fun r => decide (r.1 ≤ r.2) then .led
  else .compensated

/-- The last amount that is there. -/
def lastAmount (missing : α) (xs : List α) : α :=
  (xs.filter fun x => !Amount.isMissing x).getLast?.getD missing

def Combining.combine (missing : α) : Combining → List α → α
  | .led => Amount.ledTotal
  | .compensated => Amount.compensatedTotal
  | .last => lastAmount missing

/-- One count for the counts of a group. -/
def combineCounts (flow : Bool) (ns : List Int) : Int :=
  if flow then ns.foldl (· + ·) 0 else ns.getLast?.getD 0

/-- One number for those of a group that are there. -/
def combineMixed (flow : Bool) (cells : List (Option (Count α))) : Option (Count α) :=
  let there := (cells.filterMap id).filter fun c => !c.isMissing
  if flow then some (there.foldl Count.add (.whole 0)) else there.getLast?

/-- The cells of the rows that lie in a period, with the number of that. -/
def placedRows {β : Type} (rows : List (Option Int)) (cells : List β) : List (Int × β) :=
  (rows.zip cells).filterMap fun r => r.1.map fun p => (p, r.2)

/-- A cell for each period, from the cells of the rows that lie in it. -/
def combined {β : Type} (combine : List β → β) (rows : List (Option Int)) (periods : List Int)
    (cells : List β) : List β :=
  let groups := Groups.ofRows (placedRows rows cells)
  periods.map fun p => combine (groups.getD p [])

def gather (missing : α) (flow : Bool) (rows : List (Option Int)) (periods : List Int) :
    Cells α → Cells α
  | .amounts xs =>
    .amounts (combined ((combining flow rows xs).combine missing) rows periods xs)
  | .counts ns => .counts (combined (combineCounts flow) rows periods ns)
  | .mixed cells => .mixed (combined (combineMixed flow) rows periods cells)

/-- Cells as they are held beside those that they were gathered from. -/
def heldLike : Cells α → Cells α → Cells α
  | .counts ns, .counts source => .counts (ns.map (Word.ofColumn source).wrap)
  | cells, _ => cells

omit [Amount α] in
theorem combined_eq {β : Type} (combine : List β → β) (rows : List (Option Int))
    (periods : List Int) (cells : List β) :
    combined combine rows periods cells =
      periods.map fun p => combine (cellsIn p (placedRows rows cells)) := by
  simp only [combined, Groups.getD_ofRows]

end Cells

namespace Frame
variable {α : Type}

/-- The label of a row outside of all periods. -/
def noLabel : String := "NaT"

def labels (f : Frame α) : List String :=
  f.periods.map fun p => (p.map f.frequency.label).getD noLabel

def column? (f : Frame α) (name : String) : Option (Cells α) :=
  (f.columns.find? fun c => c.name = name).map Column.cells

variable [Amount α]

def aggregate (missing : α) (g : Frequency) (f : Frame α) : Frame α :=
  let rows := f.periods.map fun p => p.map g.covering
  let periods := Groups.distinct (rows.filterMap id)
  { frequency := g
    periods := periods.map some
    columns := f.columns.map fun c => ⟨c.name, c.cells.gather missing (isFlow c.name) rows periods⟩ }

/-- The frame with its counts held like those of the same column of `source`. -/
def heldLike (f source : Frame α) : Frame α :=
  { f with columns := f.columns.map fun c =>
      ⟨c.name, match source.column? c.name with
        | some cells => c.cells.heldLike cells
        | none => c.cells⟩ }

/-- The frame at a frequency given by name; under the monthly names it is left as it is. -/
def atFrequency (missing : α) (name : String) (f : Frame α) : Except FrequencyFault (Frame α) :=
  if Frequency.isMonthlyName name then .ok f
  else (Frequency.parse name).map fun g => f.aggregate missing g

end Frame

/-! ## The monthly frame of a run -/

section Monthly
variable {α : Type} [Amount α]

/-- The sum of the amounts of a month's incomes. -/
def Entry.inflows (t : Entry α) : α :=
  Amount.total ((t.events.filter Event.isIncome).map Event.amount)

/-- The sum of the amounts of all other events, as a positive number. -/
def Entry.outflows (t : Entry α) : α :=
  Amount.total ((t.events.filter fun e => !e.isIncome).map Event.amount)

def Entry.eventCount (t : Entry α) : Int := t.events.length

/-- The columns of the monthly frame. -/
def Run.monthlyColumns (r : Run α) : List (Column α) :=
  let entries := r.months.map r.entry
  [⟨"inflows", .amounts (entries.map Entry.inflows)⟩,
    ⟨"outflows", .amounts (entries.map Entry.outflows)⟩,
    ⟨"net_cashflow", .amounts (entries.map Entry.amount)⟩, ⟨"balance", .amounts r.balances.values⟩,
    ⟨countColumn, .counts (entries.map Entry.eventCount)⟩]

def Run.monthlyFrame (r : Run α) : Except MisplacedKey (Frame α) :=
  (Period.places r.months).map fun periods => ⟨.monthly, periods, r.monthlyColumns⟩

end Monthly

end Cashflow

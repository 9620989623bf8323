import Cashflow.Report.Kpi

/-!
# Summaries and records of a run

`Run.recordFields` is the full record of a run, events reduced to name, type and signed amount;
`Run.summary` its key figures and the range of its months; `Run.firings` its events as rows.
-/

namespace Cashflow

/-- The sum of a column; missing cells count as zero. -/
def columnTotal {α : Type} [Amount α] (cells : List α) : α :=
  Amount.balancedTotal (cells.map Amount.orZero)

namespace Run

def totalInflows {α : Type} [Amount α] (r : Run α) : α :=
  columnTotal (r.months.map fun m => (r.entry m).inflows)

def totalOutflows {α : Type} [Amount α] (r : Run α) : α :=
  columnTotal (r.months.map fun m => (r.entry m).outflows)

/-- One row per firing: the month and the event, in month and then firing order. -/
def firings {α : Type} [Amount α] (r : Run α) : List (String × Event α) :=
  r.cashflow.entries.flatMap fun t => t.2.events.map fun e => (t.1, e)

/-- The key figures by name. -/
def figures (r : Run Float) : List (String × Value) :=
  [("initial_balance", .float r.opening), ("final_balance", .float r.finalBalance),
    ("net_change", .float r.netChange), ("net_change_pct", .float r.netChangePercent),
    ("lowest_balance", .float r.lowestBalance.2),
    ("lowest_balance_month", (r.lowestBalance.1.map Value.text).getD .null),
    ("avg_monthly_change", .float r.averageMonthlyChange),
    ("total_inflows", .float r.totalInflows), ("total_outflows", .float r.totalOutflows)]

def textOrNull (s : Option String) : Value := (s.map Value.text).getD .null

def summary (r : Run Float) : Value :=
  .mapping [("type", .text "scenario_result"), ("scenario", .text r.scenario),
    ("frame", .mapping [("freq", .text "M"), ("rows", .int r.months.length),
      ("date_start", textOrNull r.months.head?), ("date_end", textOrNull r.months.getLast?)]),
    ("kpis", .mapping r.figures)]

def eventValue (e : Event Float) : Value :=
  .mapping [("name", .text e.name), ("type", .text e.type), ("amount", .float e.signedAmount)]

def entryValue (t : Entry Float) : Value :=
  .mapping [("amount", .float t.amount), ("events", .list (t.events.map eventValue))]

def firingsValue (f : Firings) : Value :=
  .mapping [("first_fired_month", .text f.first), ("last_fired_month", .text f.last),
    ("total_fire_count", .int f.count)]

def recordFields (r : Run Float) : List (String × Value) :=
  [("scenario", .text r.scenario), ("initial_balance", .float r.opening),
    ("cashflow", .mapping (r.cashflow.entries.map fun t => (t.1, entryValue t.2))),
    ("balance", .mapping (r.balances.entries.map fun b => (b.1, .float b.2))),
    ("fired_events", .mapping (r.history.entries.map fun h => (h.1, firingsValue h.2)))]

end Run

end Cashflow

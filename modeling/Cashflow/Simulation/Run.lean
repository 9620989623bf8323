import Cashflow.Simulation.Month
import Cashflow.Document.Access

/-!
# Runs

A run wires the events of a scenario, evaluates the months of its window in turn, starting from the
books with nothing but an opening balance, and keeps what the books then hold. The window may be
given as document values: dates of any sort or texts; they are read after the wiring check.
-/

namespace Cashflow
variable {α : Type} [Amount α]

/-- The outcome of a run. -/
structure Run (α : Type) [Amount α] where
  cashflow : Keyed String (Entry α)
  balances : Keyed String α
  history : History := .empty
  opening : α := 0
  scenario : String := ""

namespace Run

def months (r : Run α) : List String := r.balances.keys

/-- The balance after the last month, the opening balance if there is none. -/
def finalBalance (r : Run α) : α := r.balances.values.getLast?.getD r.opening

/-- The entry of a month, an empty one for a month without. -/
def entry (r : Run α) (key : String) : Entry α := (r.cashflow.get? key).getD {}

def ofBooks (name : String) (opening : α) (b : Books α) : Run α :=
  ⟨b.cashflow, b.balances, b.history, opening, name⟩

end Run

/-- A date of any sort, or the text of one. -/
def Date.coerce : Value → Except ValueFault Date
  | .date d | .day d | .moment d _ => .ok d
  | .text s => (Date.parse s).mapError .dateText
  | v => .error (.notDate v.quoted)

namespace Scenario

/-- The books that `evaluate` makes of an opening balance, once the events are wired. -/
def wiredBooks (r : Registry) (s : Scenario α) (opening : α)
    (evaluate : Books α → Except (Halted (Books α)) (Books α)) :
    Except (Halted (Books α)) (Books α) :=
  let start : Books α := { balance := opening }
  match r.wire s.events with
  | .error f => .error ⟨.config f, start⟩
  | .ok () => evaluate start

/-- The books after the window, or as a fault left them. -/
def books (r : Registry) (s : Scenario α) (first last : Date) (opening : α) :
    Except (Halted (Books α)) (Books α) :=
  s.wiredBooks r opening fun start => start.evaluateWindow r s.events first last

def run (r : Registry) (s : Scenario α) (first last : Date) (opening : α) : Except Fault (Run α) :=
  match s.books r first last opening with
  | .ok b => .ok (.ofBooks s.name opening b)
  | .error h => .error h.fault

/-! ## Windows that are written

A month whose year is too long to be written has no key. A window that reaches one ends there with a
fault. -/

def writtenBooks (r : Registry) (s : Scenario α) (first last : Date) (opening : α) :
    Except (Halted (Books α)) (Books α) :=
  if Date.reachesUnwritten first last then do
    let b ← s.wiredBooks r opening fun start =>
      start.evaluateMonths r s.events (Date.monthsBeforeUnwritten first)
    .error ⟨.value .longNumber, b⟩
  else s.books r first last opening

def writtenRun (r : Registry) (s : Scenario α) (first last : Date) (opening : α) :
    Except Fault (Run α) :=
  match s.writtenBooks r first last opening with
  | .ok b => .ok (.ofBooks s.name opening b)
  | .error h => .error h.fault

theorem writtenBooks_eq (r : Registry) (s : Scenario α) {first last : Date} (opening : α)
    (h : Date.reachesUnwritten first last = false) :
    s.writtenBooks r first last opening = s.books r first last opening := by
  simp [writtenBooks, h]

theorem writtenRun_eq (r : Registry) (s : Scenario α) {first last : Date} (opening : α)
    (h : Date.reachesUnwritten first last = false) :
    s.writtenRun r first last opening = s.run r first last opening := by
  rw [writtenRun, writtenBooks_eq r s opening h, run]

def runBetween (r : Registry) (s : Scenario α) (first last : Value) (opening : α) :
    Except Fault (Run α) := do
  (r.wire s.events).mapError .config
  let first ← (Date.coerce first).mapError .value
  let last ← (Date.coerce last).mapError .value
  s.writtenRun r first last opening

end Scenario

end Cashflow

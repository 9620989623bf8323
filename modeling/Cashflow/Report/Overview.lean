import Cashflow.Report.Summary
import Cashflow.Scenario.Describe

/-!
# Overviews

An overview describes the events of a scenario and, unless there are none or no simulation is
wanted, runs it from the month of `today` over a number of years, at least one and at most thirty,
to the same month again. It then has the final balance and the balance of every December in the
window.
-/

namespace Cashflow

def overviewYears (years : Option Int) : Int := min (max (years.getD 10) 1) 30

/-- The window of an overview. -/
def overviewWindow (today : Date) (years : Int) : Date × Date :=
  (⟨today.year, today.month, 1⟩, ⟨today.year + years, today.month, 1⟩)

/-- The key of the last month of a year. -/
def yearEndKey (year : Int) : String := (Date.mk year 12 1).key

/-- The years from `first` to `last`. -/
def yearsThrough (first last : Int) : List Int :=
  (List.range (last - first + 1).toNat).map fun i : Nat => first + i

/-- The balances of the Decembers in a run, by year. -/
def balanceByYear {α : Type} [Amount α] (r : Run α) (first last : Int) : List (Int × α) :=
  (yearsThrough first last).filterMap fun y => (r.balances.get? (yearEndKey y)).map fun b => (y, b)

namespace Scenario

def overviewHead (s : Scenario Float) (opening : Float) : List (String × Value) :=
  [("scenarioName", .text s.name), ("initialBalance", .float opening),
    ("eventsCount", .int s.events.length), ("events", .list (s.events.map Event.described))]

def simulationValue (r : Run Float) (years : Int) (window : Date × Date) : Value :=
  .mapping [("years", .int years), ("startDate", .text window.1.key),
    ("endDate", .text window.2.key), ("finalBalance", .float r.finalBalance),
    ("balanceByYear", .list ((balanceByYear r window.1.year window.2.year).map fun b =>
      .mapping [("year", .int b.1), ("balance", .float b.2)]))]

def overview (reg : Registry) (s : Scenario Float) (opening : Float) (years : Option Int)
    (simulate : Bool) (today : Date) : Except Fault Value :=
  let head := s.overviewHead opening
  if simulate ∧ ¬ s.events.isEmpty then do
    let years := overviewYears years
    let window := overviewWindow today years
    let r ← s.writtenRun reg window.1 window.2 opening
    if window.2.isUnwritten then throw (.value .longNumber)
    return .mapping (head ++ [("simulation", simulationValue r years window)])
  else .ok (.mapping head)

end Scenario

end Cashflow

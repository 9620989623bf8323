import Cashflow.Command.Hollow
import Cashflow.Command.Request
import Cashflow.Document.Load

/-!
# The window of a run

A run starts in the month asked for, else in that of the document, else in the month of today. It
ends with the month asked for; without one, a number of years asked for counts more than the end of
the document, and without any of these it runs for ten years. A date that is asked for as an empty
text is not asked for.
-/

namespace Cashflow.Command

/-- Why a request has no window. -/
inductive WindowFault where
  | date (fault : DateFault)
  | hollow (fault : HollowFault)

def asked (s : Option String) : Option String := s.filter (· ≠ "")

/-- The last month of a run over whole years. -/
def lastOfYears (first : Date) (years : Int) : Date := first.addMonths (years * 12 - 1)

def firstMonth (today : Date) (start : Option String) (d : RunDefaults) : Except DateFault Date :=
  match asked start with
  | some s => (Date.parse s).map Date.startOfMonth
  | none => .ok ((d.first.getD today).startOfMonth)

def lastMonth (first : Date) (stop : Option String) (years : Setting Int) (d : RunDefaults) :
    Except WindowFault Date :=
  match asked stop, years, d.last with
  | some s, _, _ => (Date.parse s).mapError .date
  | none, .unset, some last => .ok last
  | none, .unset, none => .ok (lastOfYears first 10)
  | none, .value years, _ => .ok (lastOfYears first years)
  | none, .hollow, _ => .error (.hollow .years)

def RunRequest.window (today : Date) (r : RunRequest) (d : RunDefaults) :
    Except WindowFault (Date × Date) := do
  let first ← (firstMonth today r.start d).mapError .date
  return (first, ← lastMonth first r.stop r.years d)

end Cashflow.Command

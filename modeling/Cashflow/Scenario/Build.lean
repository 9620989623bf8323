import Cashflow.Scenario.Event
import Cashflow.Document.Fault

/-!
# Builders for events

Each builder adds the calendar condition that goes with its kind of event behind the conditions of
the caller: a month for a one-off event, a range for a recurring one.
-/

namespace Cashflow.Event
variable {α : Type}

/-- Once, in the month of `date`. -/
def oneOff (type name : String) (amount : α) (date : Date) (conditions : List (Condition α))
    (metadata : Option Value) : Event α :=
  ⟨name, type, amount, Recurrence.once.name, conditions ++ [.dateIs date], metadata⟩

/-- Every month of the range, or every year in the month of `first`. Any other frequency is
refused. -/
def recurring (type name : String) (amount : α) (first : Date) (last : Option Date)
    (frequency : Value) (conditions : List (Condition α)) (metadata : Option Value) :
    Except ConfigFault (Event α) :=
  let event r : Event α := ⟨name, type, amount, r, conditions ++ [.dateInRange first last], metadata⟩
  match frequency with
  | .text f =>
    if f = Recurrence.monthly.name ∨ f = Recurrence.yearly.name then .ok (event f)
    else .error (.frequency f)
  | v => .error (.frequency v.shown)

/-- Once, whenever the conditions hold. -/
def gated (type name : String) (amount : α) (conditions : List (Condition α))
    (metadata : Option Value) : Event α :=
  ⟨name, type, amount, Recurrence.once.name, conditions, metadata⟩

end Cashflow.Event

import Cashflow.Scenario.Event

/-!
# Events described for people

A description is flat: months instead of dates, thresholds under one name, the recurrence as a word.
-/

namespace Cashflow

def Condition.described (c : Condition Float) : Value :=
  let head := [("tag", Value.text c.kind.tag.name), ("type", .text c.kind.name)]
  .mapping (head ++ match c with
    | .dateIs d => [("date", .text d.key)]
    | .dateInRange first last =>
      [("start", .text first.key), ("end", (last.map fun d => Value.text d.key).getD .null)]
    | .networthIsAbove _ x => [("threshold", .float x)]
    | .eventHappened e => [("eventName", .text e)]
    | .incomeIsAbove e x => [("eventName", .text e), ("threshold", .float x)])

def Event.described (e : Event Float) : Value :=
  .mapping [("name", .text e.name), ("type", .text e.type), ("amount", .float e.amount),
    ("recurrence", .text e.recurrence),
    ("conditions", .list (e.conditions.map Condition.described))]

end Cashflow

import Cashflow.Simulation.Run

/-!
# Hollow flags

A hollow flag is an empty list where a value is needed, and `HollowFault` says which use of it fails.
An opening balance is used step by step: `openingUse` finds the first use of it in a run, which is a
firing, a comparison, or, when no month uses it, the report of the months or of the final balance.
-/

namespace Cashflow.Command

/-- The uses of an opening balance. -/
inductive OpeningUse where
  /-- An event fires and its amount is added. -/
  | added
  | compared
  /-- The balance of a month is reported. -/
  | reported
  /-- The final balance is printed. -/
  | printed
deriving DecidableEq

inductive HollowFault where
  | level
  | input
  | years
  | frequency
  | opening (use : OpeningUse)
deriving DecidableEq

def HollowFault.message : HollowFault → String
  | .level => "attribute name must be string, not 'list'"
  | .input => "expected str, bytes or os.PathLike object, not list"
  | .years => "unsupported operand type(s) for -: 'list' and 'int'"
  | .frequency => "'list' object has no attribute 'upper'"
  | .opening .added => "'float' object is not iterable"
  | .opening .compared => "'>' not supported between instances of 'list' and 'float'"
  | .opening .reported => (ValueFault.notNumber "list").message
  | .opening .printed => "unsupported format string passed to list.__format__"

def HollowFault.family : HollowFault → Fault.Family
  | .frequency => .lookup
  | _ => .type

/-! ## The first use of an opening balance -/

/-- A condition that compares the balance. -/
def comparesBalance : Condition Float → Bool
  | .networthIsAbove _ _ => true
  | _ => false

/-- How the test of an event uses the balance of a month before which nothing fired. -/
def eventUse? (r : Registry) (m : Moment Float) (e : Event Float) : Option OpeningUse :=
  let before := e.conditions.takeWhile fun c => !comparesBalance c
  if (e.canFire r m).toOption = some true && before.all (·.holds m) then
    some (if before.length < e.conditions.length then .compared else .added)
  else none

/-- The first use in the months of a window; `none` when the window ends before it, in a month that is
not written. -/
def openingUse (r : Registry) (s : Scenario Float) (window : Date × Date) : Option OpeningUse :=
  let ends := Date.reachesUnwritten window.1 window.2
  let months := if ends then Date.monthsBeforeUnwritten window.1 else Date.window window.1 window.2
  let (first, second) := passes s.events
  let use? (month : Date) :=
    (first ++ second).findSome? (eventUse? r { month, balance := 0, history := .empty })
  months.findSome? use? <|>
    if ends then none else some (if months.isEmpty then .printed else .reported)

end Cashflow.Command

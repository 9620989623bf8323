import Cashflow.Amount
import Cashflow.Calendar.Date

/-!
# Conditions that gate events

Calendar conditions look at the month alone; balance conditions look at the running balance or at
what already fired. An event with any balance condition is evaluated in the second pass of a month
(`Condition.isBalance`).
-/

namespace Cashflow

inductive Condition (α : Type) where
  /-- Holds in the month of `date`. -/
  | dateIs (date : Date)
  /-- Holds from the month of `first` to that of `last`, or from then on. -/
  | dateInRange (first : Date) (last : Option Date)
  /-- Holds while the balance is above `amount`; the event name is a note only. -/
  | networthIsAbove (event : String) (amount : α)
  /-- Holds once an event of that name has fired. -/
  | eventHappened (event : String)
  /-- Holds when an income of that name fired this month with at least `amount`. -/
  | incomeIsAbove (event : String) (amount : α)
deriving DecidableEq

inductive ConditionKind where
  | dateIs
  | dateInRange
  | networthIsAbove
  | eventHappened
  | incomeIsAbove
deriving DecidableEq

inductive Tag where
  | cashflow
  | balance
deriving DecidableEq

def Tag.name : Tag → String
  | .cashflow => "cashflow"
  | .balance => "balance"

namespace ConditionKind

def all : List ConditionKind :=
  [.dateIs, .dateInRange, .networthIsAbove, .eventHappened, .incomeIsAbove]

def name : ConditionKind → String
  | .dateIs => "date-is"
  | .dateInRange => "date-in-range"
  | .networthIsAbove => "networth-is-above"
  | .eventHappened => "event-happened"
  | .incomeIsAbove => "income-is-above"

def tag : ConditionKind → Tag
  | .dateIs | .dateInRange => .cashflow
  | .networthIsAbove | .eventHappened | .incomeIsAbove => .balance

def ofName? (s : String) : Option ConditionKind := all.find? fun k => k.name = s

theorem ofName?_name (k : ConditionKind) : ofName? k.name = some k := by
  cases k <;> decide

end ConditionKind

namespace Condition
variable {α : Type}

def kind : Condition α → ConditionKind
  | .dateIs _ => .dateIs
  | .dateInRange _ _ => .dateInRange
  | .networthIsAbove _ _ => .networthIsAbove
  | .eventHappened _ => .eventHappened
  | .incomeIsAbove _ _ => .incomeIsAbove

def isBalance (c : Condition α) : Bool := c.kind.tag = .balance

def isCalendar (c : Condition α) : Bool := c.kind.tag = .cashflow

/-- The bounds of a range condition. -/
def range? : Condition α → Option (Date × Option Date)
  | .dateInRange first last => some (first, last)
  | _ => none

/-- The same condition, amounts compared by `eq`. -/
def sameBy (eq : α → α → Bool) : Condition α → Condition α → Bool
  | .dateIs a, .dateIs b => a = b
  | .dateInRange a c, .dateInRange b d => a = b && c = d
  | .networthIsAbove e x, .networthIsAbove f y => e = f && eq x y
  | .eventHappened e, .eventHappened f => e = f
  | .incomeIsAbove e x, .incomeIsAbove f y => e = f && eq x y
  | _, _ => false

theorem isBalance_eq_not_isCalendar (c : Condition α) : c.isBalance = !c.isCalendar := by
  cases c <;> rfl

end Condition

end Cashflow

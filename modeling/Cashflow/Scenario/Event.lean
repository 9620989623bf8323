import Cashflow.Scenario.Condition
import Cashflow.Document.Value

/-!
# Events and scenarios

An event is one income or expense item. Its name is its identity: the firing history and the
conditions look events up by name, so events that share a name share one history. The sign of an
event comes from its type, which like the recurrence is a word that need not be a known one: the
words are checked before a run.
-/

namespace Cashflow

structure Event (α : Type) where
  name : String
  type : String
  amount : α
  recurrence : String
  conditions : List (Condition α) := []
  /-- Annotations without meaning to the simulator. -/
  metadata : Option Value := none

structure Scenario (α : Type) where
  name : String
  events : List (Event α) := []

/-! ## Known words -/

inductive Recurrence where
  | once
  | monthly
  | yearly
deriving DecidableEq

namespace Recurrence

def all : List Recurrence := [.once, .monthly, .yearly]

def name : Recurrence → String
  | .once => "once"
  | .monthly => "monthly"
  | .yearly => "yearly"

def ofName? (s : String) : Option Recurrence := all.find? fun r => r.name = s

theorem ofName?_name (r : Recurrence) : ofName? r.name = some r := by
  cases r <;> decide

end Recurrence

def incomeType : String := "income"

def expenseType : String := "expense"

def eventTypes : List String := [incomeType, expenseType]

/-! ## Events -/

namespace Event
variable {α : Type}

def isIncome (e : Event α) : Bool := e.type = incomeType

/-- Incomes count up, everything else counts down. -/
def signedAmount [Neg α] (e : Event α) : α := if e.isIncome then e.amount else -e.amount

/-- Some condition looks at balances or firings. -/
def isBalanceGated (e : Event α) : Bool := e.conditions.any Condition.isBalance

/-- The bounds of the first range condition. -/
def dateRange? (e : Event α) : Option (Date × Option Date) := e.conditions.findSome? Condition.range?

/-- Annotations do not count. -/
def sameBy (eq : α → α → Bool) (a b : Event α) : Bool :=
  a.name = b.name && a.type = b.type && eq a.amount b.amount && a.recurrence = b.recurrence &&
    a.conditions.length = b.conditions.length &&
    (a.conditions.zip b.conditions).all fun c => c.1.sameBy eq c.2

end Event

namespace Scenario
variable {α : Type}

def names (s : Scenario α) : List String := s.events.map Event.name

def sameBy (eq : α → α → Bool) (a b : Scenario α) : Bool :=
  a.name = b.name && a.events.length = b.events.length &&
    (a.events.zip b.events).all fun e => e.1.sameBy eq e.2

end Scenario

/-- The two passes of a month, each in declaration order: events without a balance condition, and
events with one. -/
def passes {α : Type} (events : List (Event α)) : List (Event α) × List (Event α) :=
  (events.filter fun e => !e.isBalanceGated, events.filter Event.isBalanceGated)

end Cashflow

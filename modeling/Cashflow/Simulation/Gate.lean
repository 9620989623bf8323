import Cashflow.Scenario.Event
import Cashflow.Simulation.History

/-!
# Gates

A gate decides from a `Moment` of a month: the month, the balance shown to conditions, the firing
history and the events fired so far this month. An event fires when its recurrence gate is open and
all its conditions hold; both are looked up in a `Registry` of the kinds that have behaviour, and a
kind that is not in it is a fault. The first condition that does not hold ends the test.
-/

namespace Cashflow

structure Moment (α : Type) where
  month : Date
  balance : α
  history : History
  fired : List (Event α) := []
  /-- Whether the history was written elsewhere, so that the limit of numerals holds for its years. -/
  foreign : Bool := false

/-- The year of the last firing, as it is read at this moment. -/
def Moment.lastYear {α : Type} (m : Moment α) (f : Firings) : Except ValueFault Int :=
  if m.foreign then f.lastYear
  else match f.lastYear? with
    | some y => .ok y
    | none => .error f.noYear

/-! ## Registries -/

/-- The kinds that have behaviour. -/
structure Registry where
  conditions : List ConditionKind
  recurrences : List Recurrence

namespace Registry

def full : Registry := ⟨ConditionKind.all, Recurrence.all⟩

/-- Without the kinds of the given names. -/
def without (r : Registry) (names : List String) : Registry :=
  ⟨r.conditions.filter fun k => !names.contains k.name,
    r.recurrences.filter fun k => !names.contains k.name⟩

/-- The recurrence that a word names, if it has behaviour. -/
def recurrence? (r : Registry) (word : String) : Option Recurrence :=
  (Recurrence.ofName? word).filter fun k => r.recurrences.contains k

def hasCondition (r : Registry) (k : ConditionKind) : Bool := r.conditions.contains k

theorem recurrence?_full (k : Recurrence) : full.recurrence? k.name = some k := by
  cases k <;> decide

theorem hasCondition_full (k : ConditionKind) : full.hasCondition k = true := by
  cases k <;> decide

end Registry

/-! ## Conditions -/

namespace Condition
variable {α : Type} [Amount α]

/-- From the month of `first` to that of `last`, whole months; an absent end is the far future. -/
def inRange (first : Date) (last : Option Date) (month : Date) : Bool :=
  month.startOfMonth.within first.startOfMonth ((last.map Date.startOfMonth).getD Date.farFuture)

/-- The first income of the name among the events fired this month. -/
def firedIncome? (name : String) (fired : List (Event α)) : Option (Event α) :=
  fired.find? fun e => e.name = name && e.isIncome

def holds (c : Condition α) (m : Moment α) : Bool :=
  match c with
  | .dateIs d => m.month.sameMonth d
  | .dateInRange first last => inRange first last m.month
  | .networthIsAbove _ x => decide (x < m.balance)
  | .eventHappened name => m.history.contains name
  | .incomeIsAbove name x =>
    match firedIncome? name m.fired with
    | some e => decide (x ≤ e.amount)
    | none => false

/-- What `holds` says, for a kind with behaviour. -/
def test (r : Registry) (c : Condition α) (m : Moment α) : Except Fault Bool :=
  if r.hasCondition c.kind then .ok (c.holds m)
  else .error (.config (.condition c.kind.name none))

/-- All of them, up to the first that does not hold. -/
def testAll (r : Registry) (m : Moment α) : List (Condition α) → Except Fault Bool
  | [] => .ok true
  | c :: cs => do if ← c.test r m then testAll r m cs else .ok false

end Condition

/-! ## Recurrences -/

namespace Recurrence
variable {α : Type}

/-- Once a year, in the month of the start of the event's first range. -/
def yearlyOpen (e : Event α) (m : Moment α) : Except ValueFault Bool :=
  match e.dateRange? with
  | none => .ok false
  | some (first, _) =>
    if m.month.month ≠ first.month then .ok false
    else
      match m.history.get? e.name with
      | none => .ok true
      | some f => (m.lastYear f).map fun y => decide (y ≠ m.month.year)

def isOpen (r : Recurrence) (e : Event α) (m : Moment α) : Except ValueFault Bool :=
  match r with
  | .once => .ok (!m.history.contains e.name)
  | .monthly => .ok true
  | .yearly => yearlyOpen e m

end Recurrence

/-! ## Events -/

namespace Event
variable {α : Type} [Amount α]

/-- The recurrence gate. -/
def canFire (r : Registry) (e : Event α) (m : Moment α) : Except Fault Bool :=
  match r.recurrence? e.recurrence with
  | some k => (k.isOpen e m).mapError .value
  | none => .error (.config (.recurrence e.recurrence none))

/-- The recurrence gate and all conditions. -/
def shouldFire (r : Registry) (e : Event α) (m : Moment α) : Except Fault Bool := do
  if ← e.canFire r m then Condition.testAll r m e.conditions else .ok false

end Event

/-! ## Wiring

Before a run every word that its events use is checked, so that the month loop meets known kinds
only. -/

namespace Registry
variable {α : Type}

/-- The first defect of an event: its type, its recurrence, its conditions in order. -/
def defect? (r : Registry) (e : Event α) : Option ConfigFault :=
  if !eventTypes.contains e.type then some (.eventType e.type e.name)
  else if (r.recurrence? e.recurrence).isNone then some (.recurrence e.recurrence (some e.name))
  else
    (e.conditions.find? fun c => !r.hasCondition c.kind).map fun c =>
      .condition c.kind.name (some e.name)

def wire (r : Registry) (events : List (Event α)) : Except ConfigFault Unit :=
  match events.findSome? r.defect? with
  | some f => .error f
  | none => .ok ()

end Registry

end Cashflow

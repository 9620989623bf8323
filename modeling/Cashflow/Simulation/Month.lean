import Cashflow.Simulation.Gate

/-!
# One month

The books hold the running balance, one cashflow entry and one closing balance per month, and the
firing history. A month is opened from the books, two passes fire events in it, and it is closed
into the books again.

Conditions see the balance as it was when they were last shown one: at the opening of the month for
the first pass; after the first pass, and then after each firing, for the second.

A fault inside a pass ends the month where it stands: its entry is in the books with what fired
until then, without a closing balance.
-/

namespace Cashflow
variable {α : Type} [Amount α]

/-- The net amount of a month and the events fired in it, in order. -/
structure Entry (α : Type) [Amount α] where
  amount : α := 0
  events : List (Event α) := []

structure Books (α : Type) [Amount α] where
  balance : α := 0
  cashflow : Keyed String (Entry α) := .empty
  balances : Keyed String α := .empty
  history : History := .empty

/-- A month in progress. -/
structure OpenMonth (α : Type) [Amount α] where
  month : Date
  /-- The balance that conditions see. -/
  shown : α
  balance : α
  history : History
  entry : Entry α := {}

/-- A fault, and what it left behind. -/
structure Halted (σ : Type) where
  fault : Fault
  left : σ

def Entry.add (t : Entry α) (e : Event α) : Entry α :=
  ⟨t.amount + e.signedAmount, t.events ++ [e]⟩

namespace OpenMonth

def moment (o : OpenMonth α) : Moment α :=
  { month := o.month, balance := o.shown, history := o.history, fired := o.entry.events }

def fire (o : OpenMonth α) (e : Event α) : OpenMonth α :=
  { o with
    balance := o.balance + e.signedAmount
    history := o.history.record e.name o.month.key
    entry := o.entry.add e }

/-- Shows the running balance to conditions. -/
def refresh (o : OpenMonth α) : OpenMonth α := { o with shown := o.balance }

/-- Walks the events once; `apply` says what a firing does. -/
def pass (r : Registry) (apply : OpenMonth α → Event α → OpenMonth α) :
    List (Event α) → OpenMonth α → Except (Halted (OpenMonth α)) (OpenMonth α)
  | [], o => .ok o
  | e :: es, o =>
    match e.shouldFire r o.moment with
    | .error f => .error ⟨f, o⟩
    | .ok true => pass r apply es (apply o e)
    | .ok false => pass r apply es o

def firstPass (r : Registry) := pass (α := α) r fire

def secondPass (r : Registry) := pass (α := α) r fun o e => (o.fire e).refresh

/-- Both passes. -/
def evaluate (r : Registry) (first second : List (Event α)) (o : OpenMonth α) :
    Except (Halted (OpenMonth α)) (OpenMonth α) := do
  secondPass r second (← firstPass r first o).refresh

end OpenMonth

namespace Books

def openMonth (b : Books α) (month : Date) : OpenMonth α :=
  { month, shown := b.balance, balance := b.balance, history := b.history }

/-- The books with the entry of a month that did not end. -/
def interrupt (b : Books α) (o : OpenMonth α) : Books α :=
  { b with
    balance := o.balance
    cashflow := b.cashflow.put o.month.key o.entry
    history := o.history }

/-- The books with a month that ended. -/
def close : Books α → OpenMonth α → Books α
  | ⟨_, cashflow, balances, _⟩, o =>
    ⟨o.balance, cashflow.put o.month.key o.entry, balances.put o.month.key o.balance, o.history⟩

def evaluateMonth (r : Registry) (first second : List (Event α)) (b : Books α) (month : Date) :
    Except (Halted (Books α)) (Books α) :=
  match (b.openMonth month).evaluate r first second with
  | .ok o => .ok (b.close o)
  | .error h => .error ⟨h.fault, b.interrupt h.left⟩

/-- The months in turn. -/
def evaluateMonths (r : Registry) (events : List (Event α)) (b : Books α) (months : List Date) :
    Except (Halted (Books α)) (Books α) :=
  let parts := passes events
  months.foldlM (evaluateMonth r parts.1 parts.2) b

/-- The months of a window in turn. -/
def evaluateWindow (r : Registry) (events : List (Event α)) (b : Books α) (first last : Date) :
    Except (Halted (Books α)) (Books α) :=
  let parts := passes events
  Date.foldThrough (evaluateMonth r parts.1 parts.2) b first.startOfMonth last.startOfMonth

theorem evaluateWindow_eq (r : Registry) (events : List (Event α)) (b : Books α)
    (first last : Date) :
    b.evaluateWindow r events first last = b.evaluateMonths r events (Date.window first last) :=
  Date.foldThrough_eq _ b _ _

end Books

end Cashflow

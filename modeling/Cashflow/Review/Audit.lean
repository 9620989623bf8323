import Cashflow.Review.Invalid
import Cashflow.Simulation.Run

/-!
# Auditing a ledger

Month by month, in the order of the balances, the recorded amount is compared with the sum of the
signed amounts of the month's events, and the recorded balance with the one before (at first the
opening balance) plus the recorded amount. What differs by more than the tolerance is a
discrepancy.
-/

namespace Cashflow

inductive Discrepancy (α : Type) where
  /-- The amount against the events; `none` is the sum of no events. -/
  | cashflow (month : String) (amount : α) (fired : Option α)
  /-- The balance against the one before and the amount. -/
  | balance (month : String) (balance previous amount : α)
deriving DecidableEq

def Discrepancy.month {α : Type} : Discrepancy α → String
  | .cashflow m _ _ => m
  | .balance m _ _ _ => m

section Audit
variable {α : Type} [Amount α]

def Entry.fired (t : Entry α) : α := Amount.total (t.events.map Event.signedAmount)

def Entry.fired? (t : Entry α) : Option α := if t.events.isEmpty then none else some t.fired

def differs (tol x : α) : Bool := decide (tol < Amount.magnitude x)

/-- The discrepancies of a month, given the balance before it. -/
def monthDiscrepancies (tol previous : α) (month : String) (balance : α) (t : Entry α) :
    List (Discrepancy α) :=
  (if differs tol (t.fired - t.amount) then [.cashflow month t.amount t.fired?] else []) ++
  (if differs tol (previous + t.amount - balance) then [.balance month balance previous t.amount]
    else [])

def discrepanciesFrom (r : Run α) (tol previous : α) : List (String × α) → List (Discrepancy α)
  | [] => []
  | (month, balance) :: rest =>
    monthDiscrepancies tol previous month balance (r.entry month) ++
      discrepanciesFrom r tol balance rest

def Run.discrepancies (r : Run α) (tol : α) : List (Discrepancy α) :=
  discrepanciesFrom r tol r.opening r.balances.entries

end Audit

/-! ## Wording -/

def Discrepancy.message : Discrepancy Float → String
  | .cashflow m amount fired =>
    s!"{m}: cashflow {Decimal.text amount} != events " ++ (fired.map Decimal.text).getD "0"
  | .balance m closing previous amount =>
    s!"{m}: balance {Decimal.text closing} != {Decimal.text previous} + {Decimal.text amount}"

/-- Texts in ascending order of their codes, each once. -/
def sortedOnce (l : List String) : List String :=
  (l.mergeSort Text.isAtMost).eraseReps

/-- What is said of discrepancies; the first five are worded. -/
def reportText {α : Type} (wording : Discrepancy α → String) (ds : List (Discrepancy α)) : String :=
  "Ledger validation failed: " ++ String.intercalate "; " ((ds.take 5).map wording)

/-- The rejection of a run with discrepancies, whatever number type it is about. -/
def Run.rejectionWorded? {α : Type} [Amount α] (wording : Discrepancy α → String) (r : Run α) (tol : α) :
    Option Rejection :=
  match r.discrepancies tol with
  | [] => none
  | ds => some ⟨r.scenario, reportText wording ds, sortedOnce (ds.map Discrepancy.month)⟩

def failureText (ds : List (Discrepancy Float)) : String := reportText Discrepancy.message ds

def Run.rejection? (r : Run Float) (tol : Float) : Option Rejection :=
  r.rejectionWorded? Discrepancy.message tol

end Cashflow

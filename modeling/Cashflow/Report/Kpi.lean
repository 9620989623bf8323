import Cashflow.Report.Frame
import Cashflow.Report.Rolling

/-!
# Key figures

Figures of a run: change, low point, year-end balances, months below a threshold, drawdown; and
figures per row of a frame: liquidity runway and savings rate.

The opening balance counts as the balance before the first month. Missing balances contribute
nothing to the drawdown; without any balance there is none.
-/

namespace Cashflow

namespace Run
variable {α : Type} [Amount α]

def netChange (r : Run α) : α := r.finalBalance - r.opening

/-- In percent of the opening balance, zero when that is zero. -/
def netChangePercent (r : Run α) : α :=
  if r.opening == 0 then 0 else r.netChange / r.opening * Amount.ofNat 100

def averageMonthlyChange (r : Run α) : α :=
  if r.balances.isEmpty then 0 else r.netChange / Amount.ofNat r.balances.size

/-- The low point from a candidate on; the earliest of equals. -/
def lowestFrom (best : Option String × α) : List (String × α) → Option String × α
  | [] => best
  | (m, v) :: rest => lowestFrom (if v < best.2 then (some m, v) else best) rest

/-- The lowest balance and its month, which is absent when no month fell below the opening. -/
def lowestBalance (r : Run α) : Option String × α :=
  lowestFrom (none, r.opening) r.balances.entries

/-- The key of a last month of a year. -/
def isYearEnd (key : String) : Bool := "-12".toList.reverse.isPrefixOf key.toList.reverse

def yearOf (key : String) : Except ValueFault Int :=
  (keyYear key).mapError (.ofNumeral (keyHead key))

/-- Balances of the years whose last month was evaluated, by year. -/
def yearEndBalances (r : Run α) : Except ValueFault (Keyed Int α) :=
  (r.balances.entries.filter fun e => isYearEnd e.1).foldlM
    (fun m e => (yearOf e.1).map fun y => m.put y e.2) .empty

def monthsBelow (r : Run α) (threshold : α) : List String :=
  (r.balances.entries.filter fun e => decide (e.2 < threshold)).map Prod.fst

/-- The drops from the highest value so far; missing values have none. -/
def drops (peak : Option α) : List α → List α
  | [] => []
  | v :: rest =>
    if Amount.isMissing v then drops peak rest
    else
      let top := match peak with
        | some p => if p < v then v else p
        | none => v
      (top - v) :: drops (some top) rest

/-- The largest of the values that are there. -/
def largest (best : Option α) : List α → Option α
  | [] => best
  | v :: rest =>
    if Amount.isMissing v then largest best rest
    else match best with
      | some b => largest (some (if b < v then v else b)) rest
      | none => largest (some v) rest

/-- The largest fall from a peak to a later balance. -/
def maxDrawdown? (r : Run α) : Option α :=
  largest none (drops none (r.opening :: r.balances.values))

end Run

/-! ## Figures per row -/

namespace Frame
variable {α : Type} [Amount α]

/-- How many months the balance lasts at a mean outflow; `none` is without end. -/
def lasting (balance : α) (outflow : Option α) : Option α :=
  match outflow with
  | some m => if 0 < m then some (balance / m) else none
  | none => none

def runway (lookback : Nat) (balances outflows : List α) : List (Option α) :=
  (balances.zip (Rolling.means lookback outflows)).map fun r => lasting r.1 r.2

/-- The share of the inflows that is kept; `none` without inflows. -/
def savingsRate (inflows outflows : List α) : List (Option α) :=
  (inflows.zip outflows).map fun r => if r.1 == 0 then none else some ((r.1 - r.2) / r.1)

end Frame

end Cashflow

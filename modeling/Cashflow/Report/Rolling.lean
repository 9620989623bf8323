import Cashflow.Amount

/-!
# Rolling means

The mean of the last cells up to each cell of a column, from one running sum: a cell is added when
the window reaches it and taken off when the window leaves it. What an addition loses is carried into
the next addition, what a subtraction loses into the next subtraction. Only bounded cells count.

Rounding may leave a sum that its cells contradict. So cells that are all equal are their own mean,
the mean of cells none of which is negative is not below zero, and that of negative cells alone is
not above it.
-/

namespace Cashflow

/-- The cells in a window. -/
structure Rolling (α : Type) [Amount α] where
  sum : α := 0
  /-- What the last addition made too much. -/
  added : α := 0
  /-- What the last subtraction made too much. -/
  dropped : α := 0
  size : Nat := 0
  negatives : Nat := 0
  /-- The cell added last, and how often it was added in a row. -/
  last : Option α := none
  repeats : Nat := 0

namespace Rolling
variable {α : Type} [Amount α]

def add (w : Rolling α) (x : α) : Rolling α :=
  if Amount.isBounded x then
    let step := x - w.added
    let next := w.sum + step
    { w with
      sum := next
      added := next - w.sum - step
      size := w.size + 1
      negatives := w.negatives + (if Amount.isNegative x then 1 else 0)
      last := some x
      repeats := if w.last.any (x == ·) then w.repeats + 1 else 1 }
  else w

def drop (w : Rolling α) (x : α) : Rolling α :=
  if Amount.isBounded x then
    let step := -x - w.dropped
    let next := w.sum + step
    { w with
      sum := next
      dropped := next - w.sum - step
      size := w.size - 1
      negatives := w.negatives - (if Amount.isNegative x then 1 else 0) }
  else w

def mean? (w : Rolling α) : Option α :=
  if w.size = 0 then none
  else
    w.last.map fun last =>
      let mean := w.sum / Amount.ofNat w.size
      if w.size ≤ w.repeats then last
      else if w.negatives = 0 ∧ mean < 0 then 0
      else if w.negatives = w.size ∧ 0 < mean then 0
      else mean

/-- The means from a window on; `waiting` cells are added before the first of `leaving` leaves. A
window of one cell starts anew with each. -/
def meansFrom (length : Nat) (w : Rolling α) (waiting : Nat) (leaving : List α) :
    List α → List (Option α)
  | [] => []
  | x :: rest =>
    match waiting, leaving with
    | 0, y :: ys =>
      let w := (if length = 1 then {} else w.drop y).add x
      w.mean? :: meansFrom length w 0 ys rest
    | waiting, ys =>
      let w := w.add x
      w.mean? :: meansFrom length w (waiting - 1) ys rest

/-- The mean of the last `length` cells up to each. -/
def means (length : Nat) (xs : List α) : List (Option α) := meansFrom length {} length xs xs

end Rolling

end Cashflow

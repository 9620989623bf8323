/-!
# Amounts

The simulator only ever adds, negates, divides and compares amounts, so it is written for any
number type with those operations. It runs on doubles (`Float`); its laws are studied on exact
numbers (`Rat`), where addition is associative and nothing is missing.

* `total` : the sum of a list, from zero, left to right (the order matters for doubles);
* `isMissing` : the number that is not even below itself (the undefined double);
* `isBounded` : neither missing nor infinite;
* `isNegative` : below zero, or the zero whose reciprocal is.
-/

namespace Cashflow

/-- A number type that can carry amounts of money. -/
class Amount (α : Type) extends Zero α, Add α, Sub α, Neg α, Mul α, Div α, LT α, LE α, BEq α where
  decLt : DecidableLT α
  decLe : DecidableLE α
  /-- A count as an amount. -/
  ofNat : Nat → α

instance (priority := low) decidableLT {α : Type} [Amount α] : DecidableLT α := Amount.decLt

instance (priority := low) decidableLE {α : Type} [Amount α] : DecidableLE α := Amount.decLe

instance : Amount Float where
  decLt := inferInstance
  decLe := inferInstance
  ofNat := Float.ofNat

instance : Amount Rat where
  toZero := ⟨0⟩
  decLt := inferInstance
  decLe := inferInstance
  ofNat n := (n : Rat)

namespace Amount
variable {α : Type} [Amount α]

/-- A whole number as an amount. -/
def ofInt (n : Int) : α := if n < 0 then -ofNat n.natAbs else ofNat n.natAbs

def total (xs : List α) : α := xs.foldl (· + ·) 0

def magnitude (x : α) : α := if x < 0 then -x else x

def isMissing (x : α) : Bool := !decide (x ≤ x)

/-- Zero in the place of what is missing. -/
def orZero (x : α) : α := if isMissing x then 0 else x

def isBounded (x : α) : Bool := !isMissing (x - x)

def isNegative (x : α) : Bool := decide (x < 0) || (x == 0 && decide (Amount.ofNat 1 / x < 0))

@[simp] theorem total_nil : total ([] : List α) = 0 := rfl

theorem total_concat (xs : List α) (x : α) : total (xs ++ [x]) = total xs + x := by
  simp [total]

end Amount

end Cashflow

import Cashflow.Amount

/-!
# Totals with small rounding errors

Two ways of adding doubles that keep rounding errors small: in pairs rather than one after the other,
and one after the other with what each addition loses carried into the next. On exact numbers both
are the plain total.

* `balancedTotal` : a column of up to 128 cells is added in groups of eight to eight running sums,
  one per place of the group; these are added in pairs, and the cells behind the last whole group one
  after the other. A longer column is the sum of its halves, the first cut to whole groups;
* `ledTotal` : the first cell, and to it the balanced total of the others;
* `compensatedTotal` : the cells that are there one after the other, each less by what the addition
  before made too much, as long as that is a bounded number.
-/

namespace Cashflow

/-- Eight running sums. -/
structure Lanes (α : Type) where
  a : α
  b : α
  c : α
  d : α
  e : α
  f : α
  g : α
  h : α

namespace Lanes
variable {α : Type} [Amount α]

def zero : Lanes α := ⟨0, 0, 0, 0, 0, 0, 0, 0⟩

/-- Adds whole groups; what is left is shorter than a group. -/
def fill (s : Lanes α) : List α → Lanes α × List α
  | a :: b :: c :: d :: e :: f :: g :: h :: rest =>
    fill ⟨s.a + a, s.b + b, s.c + c, s.d + d, s.e + e, s.f + f, s.g + g, s.h + h⟩ rest
  | rest => (s, rest)

def collect (s : Lanes α) : α := ((s.a + s.b) + (s.c + s.d)) + ((s.e + s.f) + (s.g + s.h))

end Lanes

namespace Amount
variable {α : Type} [Amount α]

def blockTotal (xs : List α) : α :=
  let filled := Lanes.zero.fill xs
  filled.2.foldl (· + ·) filled.1.collect

/-- The longest column that is not halved. -/
def blockLength : Nat := 128

/-- The length of the first half, in whole groups of eight. -/
def firstHalf (n : Nat) : Nat := n / 2 / 8 * 8

def balancedTotal (xs : List α) : α :=
  if xs.length ≤ blockLength then blockTotal xs
  else
    balancedTotal (xs.take (firstHalf xs.length)) + balancedTotal (xs.drop (firstHalf xs.length))
termination_by xs.length
decreasing_by
  all_goals
    simp only [blockLength, firstHalf, List.length_take, List.length_drop] at *
    omega

def ledTotal : List α → α
  | [] => 0
  | x :: rest => x + balancedTotal rest

end Amount

/-- A running sum, and what its last addition made too much. -/
structure Compensated (α : Type) [Amount α] where
  sum : α := 0
  excess : α := 0

def Compensated.add {α : Type} [Amount α] (t : Compensated α) (x : α) : Compensated α :=
  let step := x - t.excess
  let next := t.sum + step
  let excess := next - t.sum - step
  ⟨next, if Amount.isBounded excess then excess else 0⟩

def Amount.compensatedTotal {α : Type} [Amount α] (xs : List α) : α :=
  ((xs.filter fun x => !isMissing x).foldl Compensated.add {}).sum

end Cashflow

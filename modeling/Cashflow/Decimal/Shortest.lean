import Cashflow.Decimal.Binary
import Cashflow.Text.Numeral

/-!
# The fewest digits that identify a double

On the grid of one, two, … seventeen digits the two neighbours of the value are tried: the first
grid with a neighbour that reads back as the same double gives the digits, the nearer neighbour if
both do (on a tie the even one). A decimal is a digit count and the place of its point: `⟨d, k⟩` is
the digits of `d` after the point, times `10 ^ k`.
-/

namespace Cashflow.Decimal
open Cashflow.Text

structure Places where
  digits : Nat
  point : Int

def digitCount (n : Nat) : Nat := (digits n).length

/-- The least `k` with the fraction below `10 ^ k`; the fraction is positive. -/
def Fraction.point (f : Fraction) : Int :=
  if f.den ≤ f.num then digitCount f.floor else 1 - (digitCount ((f.den - 1) / f.num) : Int)

/-- The neighbours of `f` on the grid of `n` digits which have the code `code`, nearer first. -/
def gridHits (code : Nat) (f : Fraction) (k : Int) (n : Nat) : List Nat :=
  let onGrid := f.times 10 ((n : Int) - k)
  let low := onGrid.floor
  let order := if onGrid.round = low then [low, low + 1] else [low + 1, low]
  order.filter fun d => decimalCode d (k - n) = code

def shortestFrom (code : Nat) (f : Fraction) (k : Int) : Nat → Nat → Option (Nat × Nat)
  | 0, _ => none
  | fuel + 1, n =>
    match gridHits code f k n with
    | d :: _ => some (d, n)
    | [] => shortestFrom code f k fuel (n + 1)

/-- Trailing zeros carry nothing after the point. -/
def dropZeros : Nat → Nat → Nat
  | 0, d => d
  | fuel + 1, d => if d % 10 = 0 ∧ d ≠ 0 then dropZeros fuel (d / 10) else d

/-- The digits of a positive finite double, given as its mantissa and exponent. -/
def shortest (mantissa : Nat) (exponent : Int) : Places :=
  let f := scaled mantissa 2 exponent
  let k := f.point
  match shortestFrom (nearestCode f) f k 17 1 with
  | some (d, n) =>
    let grown := if digitCount d = n then k else k + 1
    ⟨dropZeros 400 d, grown⟩
  | none => ⟨dropZeros 400 f.floor, k⟩

end Cashflow.Decimal

/-!
# Whole numbers in words

A column of whole numbers is held in words of 64 bits when all its numbers fit: with a sign if they
can, else without one. Sums over such a column go round at the end of the word. A column that fits
neither is held without a bound.

* `Word.ofColumn` : the word that holds the numbers of a column;
* `Word.wrap` : what is left of a number in a word.
-/

namespace Cashflow

inductive Word where
  | signed
  | unsigned
  | unbounded
deriving DecidableEq

namespace Word

/-- The number of values of a word. -/
def span : Int := 18446744073709551616

/-- The least number of a word, `none` when there is none. -/
def least? : Word → Option Int
  | .signed => some (-9223372036854775808)
  | .unsigned => some 0
  | .unbounded => none

def fits (w : Word) (n : Int) : Bool :=
  match w.least? with
  | some least => decide (least ≤ n) && decide (n < least + span)
  | none => true

def ofColumn (ns : List Int) : Word :=
  if ns.all signed.fits then .signed else if ns.all unsigned.fits then .unsigned else .unbounded

def wrap (w : Word) (n : Int) : Int :=
  match w.least? with
  | some least => least + (n - least) % span
  | none => n

end Word

end Cashflow

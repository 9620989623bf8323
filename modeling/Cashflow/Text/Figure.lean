/-!
# Figures at the front of a text

Numbers of a fixed width, in the plain digits `0` to `9`. Each reader gives the number and what comes
behind it.

* `figures? w` : exactly `w` figures;
* `figuresUpTo2?` : one figure, and a second one if it is there.
-/

namespace Cashflow.Text

/-- The value of a plain digit. -/
def figure? (c : Char) : Option Nat :=
  if '0' ≤ c ∧ c ≤ '9' then some (c.toNat - '0'.toNat) else none

/-- `n` with `w` more figures behind it. -/
def figuresAfter (n : Nat) : Nat → List Char → Option (Nat × List Char)
  | 0, s => some (n, s)
  | _ + 1, [] => none
  | w + 1, c :: r => (figure? c).bind fun d => figuresAfter (10 * n + d) w r

def figures? (w : Nat) (s : List Char) : Option (Nat × List Char) := figuresAfter 0 w s

def figuresUpTo2? (s : List Char) : Option (Nat × List Char) := figures? 2 s <|> figures? 1 s

end Cashflow.Text

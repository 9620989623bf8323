import Cashflow.Decimal.Binary

/-!
# Rounding to decimal places

`roundTo x n` is the double nearest to `x` rounded to `n` places (tens, hundreds, … for negative
`n`), a half on the exact value going to the even neighbour. Beyond 323 places a double has no
digits to lose; beyond the 308th power of ten nothing of it is left but its sign.
-/

namespace Cashflow.Decimal

/-- Gives `none` when the rounded value is too large for a double. -/
def roundTo? (x : Float) (n : Int) : Option Float :=
  match read x with
  | .finite negative m e =>
    if 323 < n then some x
    else if n < -308 then some (ofCode negative 0)
    else
      let code := decimalCode (((scaled m 2 e).times 10 n).round) (-n)
      if code < infinityCode then some (ofCode negative code) else none
  | _ => some x

/-- The whole part, dropping the fraction; `none` for what is not finite. -/
def truncate? (x : Float) : Option Int :=
  match read x with
  | .finite negative m e =>
    let n := (scaled m 2 e).floor
    some (if negative then -(n : Int) else n)
  | _ => none

end Cashflow.Decimal

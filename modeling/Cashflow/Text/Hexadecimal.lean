/-!
# Hexadecimal digits

`hexDigits w n` are the last `w` digits of `n` to the base sixteen, small letters from ten on.
-/

namespace Cashflow.Text

/-- The digit of value `d` below sixteen. -/
def hexChar (d : Nat) : Char := if d < 10 then Char.ofNat (48 + d) else Char.ofNat (87 + d)

/-- The `w` last hexadecimal digits of `n`. -/
def hexDigits : Nat → Nat → List Char
  | 0, _ => []
  | w + 1, n => hexDigits w (n / 16) ++ [hexChar (n % 16)]

end Cashflow.Text

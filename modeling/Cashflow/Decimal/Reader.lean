import Cashflow.Decimal.Binary
import Cashflow.Text.Numeral

/-!
# Reading decimal numbers

A decimal number has blanks around it, a sign, digits of any script with a point anywhere among
them, single underscores between digits, and perhaps an exponent; `inf`, `infinity` and `nan` are
numbers in any case. It reads as the nearest double, infinity when it is out of range.
-/

namespace Cashflow.Decimal
open Cashflow.Text

/-- Digits of all scripts as ASCII digits, everything else as it is. -/
def plainDigit (c : Char) : Char :=
  match digitValue? c with
  | some d => digitChar d
  | none => c

def isDigit (c : Char) : Bool := decide ('0' ≤ c) && decide (c ≤ '9')

/-- Takes the underscores out; each must stand between two digits. -/
def dropUnderscores (afterDigit : Bool) : List Char → Option (List Char)
  | [] => some []
  | '_' :: c :: r =>
    if afterDigit && isDigit c then (dropUnderscores true r).map (c :: ·) else none
  | c :: r => if c = '_' then none else (dropUnderscores (isDigit c) r).map (c :: ·)

def digitsValue (ds : List Char) : Nat := ds.foldl (fun n c => 10 * n + (c.toNat - 48)) 0

/-- What may follow the digits: nothing, or an exponent. -/
def exponent? : List Char → Option Int
  | [] => some 0
  | e :: r =>
    if e = 'e' ∨ e = 'E' then
      let (negative, ds) := match r with
        | '-' :: ds => (true, ds)
        | '+' :: ds => (false, ds)
        | ds => (false, ds)
      if ds ≠ [] ∧ ds.all isDigit then
        let n : Int := digitsValue ds
        some (if negative then -n else n)
      else none
    else none

def unsigned? (negative : Bool) (s : List Char) : Option Float :=
  let whole := s.takeWhile isDigit
  let rest := s.dropWhile isDigit
  let (fraction, tail) := match rest with
    | '.' :: r => (r.takeWhile isDigit, r.dropWhile isDigit)
    | r => ([], r)
  if whole = [] ∧ fraction = [] then none
  else (exponent? tail).map fun e =>
    ofDecimal negative (digitsValue (whole ++ fraction)) (e - fraction.length)

def lower (c : Char) : Char := if 'A' ≤ c ∧ c ≤ 'Z' then Char.ofNat (c.toNat + 32) else c

def named? (negative : Bool) (s : List Char) : Option Float :=
  let word := String.ofList (s.map lower)
  if word = "inf" ∨ word = "infinity" then some (infinity negative)
  else if word = "nan" then some undefined
  else none

def number? (s : List Char) : Option Float :=
  (dropUnderscores false ((trimmed isNumeralBlank s).map plainDigit)).bind fun body =>
    let (negative, r) := match body with
      | '-' :: r => (true, r)
      | '+' :: r => (false, r)
      | r => (false, r)
    (named? negative r).or (unsigned? negative r)

end Cashflow.Decimal

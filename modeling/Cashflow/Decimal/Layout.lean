import Cashflow.Decimal.Shortest

/-!
# How amounts are written

* `text` : the fewest digits that read back, positional from `0.0001` up to below `10 ^ 16`, with
  `.0` for whole numbers, otherwise with a signed exponent of at least two digits;
* `fixed` : a fixed number of places, halves to even on the exact value;
* `grouped` : the same with a comma between groups of three digits.

The sign of a negative zero is kept, also when the places round a negative amount to zero.
-/

namespace Cashflow.Decimal
open Cashflow.Text

/-- Where positional writing ends: values from `10 ^ (smallest - 1)` to below `10 ^ largest`. -/
structure Layout where
  smallest : Int
  largest : Int
  exponentWidth : Nat

def amountLayout : Layout := ⟨-3, 16, 2⟩

def signMark (negative : Bool) : List Char := if negative then ['-'] else []

def undefinedName : List Char := "nan".toList

def infiniteName : List Char := "inf".toList

/-- The digits with a point inside, before or behind them. -/
def positional (ds : List Char) (point : Int) : List Char :=
  if point ≤ 0 then '0' :: '.' :: List.replicate (-point).toNat '0' ++ ds
  else if ds.length ≤ point.toNat then
    ds ++ List.replicate (point.toNat - ds.length) '0' ++ ['.', '0']
  else ds.take point.toNat ++ '.' :: ds.drop point.toNat

def exponentMark (width : Nat) (e : Int) : List Char :=
  let ds := digits e.natAbs
  'e' :: (if e < 0 then '-' else '+') :: (List.replicate (width - ds.length) '0' ++ ds)

def scientific (width : Nat) (ds : List Char) (point : Int) : List Char :=
  let mantissa := match ds with
    | [d] => [d]
    | d :: r => d :: '.' :: r
    | [] => []
  mantissa ++ exponentMark width (point - 1)

def Layout.places (l : Layout) (p : Places) : List Char :=
  let ds := digits p.digits
  if l.smallest ≤ p.point ∧ p.point ≤ l.largest then positional ds p.point
  else scientific l.exponentWidth ds p.point

def Layout.write (l : Layout) : Reading → List Char
  | .undefined => undefinedName
  | .infinite negative => signMark negative ++ infiniteName
  | .finite negative 0 _ => signMark negative ++ ['0', '.', '0']
  | .finite negative m e => signMark negative ++ l.places (shortest m e)

/-- An amount in full. -/
def text (x : Float) : String := String.ofList (amountLayout.write (read x))

/-! ## Fixed places -/

/-- A comma before every third digit from the right. -/
def commas (ds : List Char) : List Char :=
  match ds with
  | [] => []
  | d :: r => if r.length % 3 = 0 ∧ r ≠ [] then d :: ',' :: commas r else d :: commas r

/-- The magnitude in `n` places. -/
def fixedPlaces (n : Nat) (group : List Char → List Char) (mantissa : Nat) (exponent : Int) :
    List Char :=
  let units := ((scaled mantissa 2 exponent).times 10 n).round
  let fraction := digits (units % Nat.pow 10 n)
  group (digits (units / Nat.pow 10 n)) ++
    (if n = 0 then [] else '.' :: (List.replicate (n - fraction.length) '0' ++ fraction))

def fixedWith (plus : List Char) (n : Nat) (group : List Char → List Char) : Reading → List Char
  | .undefined => plus ++ undefinedName
  | .infinite negative => (if negative then ['-'] else plus) ++ infiniteName
  | .finite negative m e => (if negative then ['-'] else plus) ++ fixedPlaces n group m e

def fixed (n : Nat) (x : Float) : String := String.ofList (fixedWith [] n id (read x))

/-- With a sign in front in any case. -/
def fixedSigned (n : Nat) (x : Float) : String := String.ofList (fixedWith ['+'] n id (read x))

def grouped (n : Nat) (x : Float) : String := String.ofList (fixedWith [] n commas (read x))

end Cashflow.Decimal

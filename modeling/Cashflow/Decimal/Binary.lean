/-!
# Doubles as exact numbers

`read` takes a double apart into sign, whole mantissa and power of two. `nearest` is the way back:
the double closest to a positive fraction, of two equally close ones the one with the even
mantissa, infinity beyond the largest. All of it is arithmetic on naturals.

The code of a finite double is monotone in its magnitude, and a mantissa that rounds up to the next
power of two carries into the exponent field, so `nearest` needs no case for it.
-/

namespace Cashflow.Decimal

/-- What a double stands for. -/
inductive Reading where
  | finite (negative : Bool) (mantissa : Nat) (exponent : Int)
  | infinite (negative : Bool)
  | undefined
deriving DecidableEq

/-- What the sign bit counts in a code. -/
def signUnit : Nat := Nat.pow 2 63

/-- What the exponent field counts by in a code; the fraction field lies below. -/
def fieldUnit : Nat := Nat.pow 2 52

def read (x : Float) : Reading :=
  let code : Nat := x.toBits.toNat
  let negative := code / signUnit % 2 == 1
  let field : Nat := code / fieldUnit % 2048
  let fraction : Nat := code % fieldUnit
  if field = 0 then .finite negative fraction (-1074)
  else if field < 2047 then .finite negative (fieldUnit + fraction) ((field : Int) - 1075)
  else if fraction = 0 then .infinite negative
  else .undefined

/-! ## Fractions -/

/-- A fraction of naturals; the denominator is not zero. -/
structure Fraction where
  num : Nat
  den : Nat

/-- The fraction `m * b ^ e`. -/
def scaled (m b : Nat) (e : Int) : Fraction :=
  if 0 ≤ e then ⟨m * b.pow e.toNat, 1⟩ else ⟨m, b.pow (-e).toNat⟩

/-- The fraction times `b ^ e`. -/
def Fraction.times (f : Fraction) (b : Nat) (e : Int) : Fraction :=
  if 0 ≤ e then ⟨f.num * b.pow e.toNat, f.den⟩ else ⟨f.num, f.den * b.pow (-e).toNat⟩

def Fraction.floor (f : Fraction) : Nat := f.num / f.den

/-- The nearest whole number, a half going to the even neighbour. -/
def Fraction.round (f : Fraction) : Nat :=
  let q := f.num / f.den
  let r := f.num % f.den
  if 2 * r < f.den then q
  else if f.den < 2 * r then q + 1
  else if q % 2 = 0 then q else q + 1

/-- The largest `e` with `2 ^ e` at most the fraction, which is positive. -/
def Fraction.log2 (f : Fraction) : Int :=
  let e := (Nat.log2 f.num : Int) - Nat.log2 f.den
  let unit := f.times 2 (-e)
  if unit.den ≤ unit.num then e else e - 1

/-! ## The nearest double -/

/-- The code of infinity; finite codes lie below it. -/
def infinityCode : Nat := 2047 * fieldUnit

/-- The code of the double nearest to a fraction, sign apart. -/
def nearestCode (f : Fraction) : Nat :=
  if f.num = 0 then 0
  else
    let e := max (f.log2 - 52) (-1074)
    min infinityCode ((e + 1074).toNat * fieldUnit + (f.times 2 (-e)).round)

def ofCode (negative : Bool) (code : Nat) : Float :=
  Float.ofBits (UInt64.ofNat (if negative then signUnit + code else code))

def nearest (negative : Bool) (f : Fraction) : Float := ofCode negative (nearestCode f)

def infinity (negative : Bool) : Float := ofCode negative infinityCode

def undefined : Float := Float.ofBits 0x7ff8000000000000

/-- The double nearest to a whole number, `none` when it is out of range. -/
def ofInt? (i : Int) : Option Float :=
  let code := nearestCode ⟨i.natAbs, 1⟩
  if code < infinityCode then some (ofCode (decide (i < 0)) code) else none

/-- The code of the double nearest to `digits * 10 ^ exponent`. Exponents far out of range are
decided by the number of digits alone. -/
def decimalCode (digits : Nat) (exponent : Int) : Nat :=
  if digits = 0 then 0
  else if 400 < exponent then infinityCode
  else if exponent < -400 - (Nat.log2 digits : Int) then 0
  else nearestCode (scaled digits 10 exponent)

def ofDecimal (negative : Bool) (digits : Nat) (exponent : Int) : Float :=
  ofCode negative (decimalCode digits exponent)

end Cashflow.Decimal

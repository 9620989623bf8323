import Cashflow.Text.Blank
import Cashflow.Text.DecimalDigit

/-!
# Whole numbers in decimal notation

* `digits n` : the digits of `n`, most significant first, as characters;
* `integer i` : with a minus sign below zero; `padded w i` : filled up with zeros after the sign to
  at least `w` characters, the sign included;
* `natural?`, `integer?` : the readers. A numeral may have blanks around it, a sign in front,
  digits of any script and single underscores between digits;
* `readInteger` : the reader for numerals from outside, which refuses one of more digits than
  `digitLimit`, whatever comes behind it; `isTooLong` : whether a number has more digits than that.
-/

namespace Cashflow.Text

def digitChar (d : Nat) : Char := Char.ofNat (48 + d)

/-- The digits of `n` with `rest` behind them. -/
def digitsBefore (rest : List Char) (n : Nat) : List Char :=
  if n < 10 then digitChar n :: rest else digitsBefore (digitChar (n % 10) :: rest) (n / 10)

def digits (n : Nat) : List Char := digitsBefore [] n

def signed (i : Int) (body : List Char) : List Char := if i < 0 then '-' :: body else body

def integer (i : Int) : List Char := signed i (digits i.natAbs)

/-- At least `w` characters, zeros between the sign and the digits. -/
def padded (w : Nat) (i : Int) : List Char :=
  let ds := digits i.natAbs
  signed i (List.replicate (w - (signed i ds).length) '0' ++ ds)

/-- Reads on after `n`; an underscore must be followed by a digit. -/
def digitsAfter (n : Nat) : List Char → Option Nat
  | [] => some n
  | '_' :: c :: r => (digitValue? c).bind fun d => digitsAfter (10 * n + d) r
  | c :: r => (digitValue? c).bind fun d => digitsAfter (10 * n + d) r

def natural? : List Char → Option Nat
  | [] => none
  | c :: r => (digitValue? c).bind fun d => digitsAfter d r

def signedNumeral? : List Char → Option Int
  | '-' :: r => (natural? r).map fun n => -(n : Int)
  | '+' :: r => (natural? r).map Int.ofNat
  | r => (natural? r).map Int.ofNat

def integer? (s : List Char) : Option Int := signedNumeral? (trimmed isNumeralBlank s)

/-! ## The limit of digits -/

/-- Why a text is no whole number. -/
inductive NumeralFault where
  | malformed
  /-- More digits than are read. -/
  | tooLong (digits : Nat)
deriving DecidableEq

/-- The most digits that a numeral from outside may have. -/
def digitLimit : Nat := 4300

/-- Whether a number has more digits than a numeral may have. -/
def isTooLong (i : Int) : Bool := decide (Nat.pow 10 digitLimit ≤ i.natAbs)

def isNumeralChar (c : Char) : Bool := c = '_' || (digitValue? c).isSome

def unsigned : List Char → List Char
  | '-' :: r => r
  | '+' :: r => r
  | r => r

/-- The number of digits that a text starts with, when they read but are too many. -/
def excess? (s : List Char) : Option Nat :=
  let run := s.takeWhile isNumeralChar
  let count := run.countP (· ≠ '_')
  if digitLimit < count ∧ (natural? run).isSome then some count else none

def readInteger (s : List Char) : Except NumeralFault Int :=
  let t := trimmed isNumeralBlank s
  match excess? (unsigned t), signedNumeral? t with
  | some n, _ => .error (.tooLong n)
  | none, some i => .ok i
  | none, none => .error .malformed

/-! ## Reading back what was written -/

theorem digitsBefore_eq (rest : List Char) (n : Nat) : digitsBefore rest n = digits n ++ rest := by
  induction n using Nat.strongRecOn generalizing rest with
  | _ n ih =>
    change digitsBefore rest n = digitsBefore [] n ++ rest
    by_cases h : n < 10
    · rw [digitsBefore, if_pos h, digitsBefore, if_pos h]; rfl
    · rw [digitsBefore, if_neg h, ih (n / 10) (by omega), digitsBefore.eq_def [] n, if_neg h,
        ih (n / 10) (by omega)]
      simp

theorem digits_of_lt {n : Nat} (h : n < 10) : digits n = [digitChar n] := by
  rw [digits, digitsBefore, if_pos h]

theorem digits_of_le {n : Nat} (h : 10 ≤ n) :
    digits n = digits (n / 10) ++ [digitChar (n % 10)] := by
  rw [digits, digitsBefore, if_neg (by omega), digitsBefore_eq]

theorem digits_ne_nil (n : Nat) : digits n ≠ [] := by
  by_cases h : n < 10
  · simp [digits_of_lt h]
  · simp [digits_of_le (Nat.le_of_not_lt h)]

theorem digitValue?_digitChar {d : Nat} (h : d < 10) : digitValue? (digitChar d) = some d := by
  have : ∀ d < 10, digitValue? (digitChar d) = some d := by decide
  exact this d h

theorem digitChar_ne {d : Nat} (h : d < 10) : digitChar d ≠ '_' ∧ digitChar d ≠ '-' := by
  have : ∀ d < 10, digitChar d ≠ '_' ∧ digitChar d ≠ '-' := by decide
  exact this d h

end Cashflow.Text

import Cashflow.Calendar.Key
import Cashflow.Calendar.Names

/-!
# Reporting periods

A period is named by the index of its last month. Months are their own periods; quarters and years
belong to a fiscal year that ends in a chosen month. `Frequency.covering` finds the period that a
month lies in; a coarser period covers a finer one when it covers its last month.

* `Frequency.parse` : `M`, `Q` and `Y` end in December, `Q-MMM` and `Y-MMM` in the month named; a
  positive number may stand in front, which changes nothing, and blanks around both;
* `Frequency.label` : `2025-01`, `2025Q1`, `2025`, by the year in which the fiscal year ends, with four
  digits.
-/

namespace Cashflow
open Cashflow.Text

inductive Frequency where
  | monthly
  /-- Quarters of the fiscal years that end in the month `last`, counted from zero. -/
  | quarterly (last : Fin 12)
  | yearly (last : Fin 12)
deriving DecidableEq

/-- Why a text is no frequency. -/
inductive FrequencyFault where
  | unknown
  /-- A number in front that is too large. -/
  | stride
deriving DecidableEq

namespace Frequency

/-- The number of months in a period. -/
def span : Frequency → Int
  | .monthly => 1
  | .quarterly _ => 3
  | .yearly _ => 12

/-- The place of a month in which a period ends. -/
def anchor : Frequency → Int
  | .monthly => 0
  | .quarterly last => last.val
  | .yearly last => last.val

/-- The last month of the period that covers the month `i`. -/
def covering (f : Frequency) (i : Int) : Int := i + (f.anchor - i) % f.span

theorem span_pos (f : Frequency) : 0 < f.span := by cases f <;> simp [span]

theorem le_covering (f : Frequency) (i : Int) : i ≤ f.covering i := by
  have := Int.emod_nonneg (f.anchor - i) (Int.ne_of_gt f.span_pos)
  unfold covering; omega

theorem covering_lt (f : Frequency) (i : Int) : f.covering i < i + f.span := by
  have := Int.emod_lt_of_pos (f.anchor - i) f.span_pos
  unfold covering; omega

@[simp] theorem covering_monthly (i : Int) : Frequency.monthly.covering i = i := by
  simp only [covering, anchor, span]; omega

/-- Months, quarters and years; the latter end in December unless another month is named. -/
def named? (name : List Char) : Option Frequency :=
  match name with
  | ['M'] => some .monthly
  | ['Q'] => some (.quarterly 11)
  | ['Y'] => some (.yearly 11)
  | 'Q' :: '-' :: month => (month? (String.ofList month)).map .quarterly
  | 'Y' :: '-' :: month => (month? (String.ofList month)).map .yearly
  | _ => none

/-- Where words of 64 bits and their signed halves end, the latter to the precision of a double. -/
def wordEnds : Int × Int := (Nat.pow 2 64, Nat.pow 2 63 - 512)

/-- What is wrong with the number in front of a frequency. -/
def strideFault? (stride : List Char) : Option FrequencyFault :=
  if stride.isEmpty then none
  else match readInteger stride with
    | .error _ => some .unknown
    | .ok n =>
      if n ≤ 0 ∨ wordEnds.1 ≤ n then some .unknown
      else if wordEnds.2 ≤ n then some .stride
      else none

def isSign (c : Char) : Bool := c = '+' || c = '-'

/-- The number in front of a name, which may have a sign. -/
def strideOf (s : List Char) : List Char :=
  match s with
  | c :: r => if isSign c then c :: r.takeWhile isStrideDigit else s.takeWhile isStrideDigit
  | [] => []
where
  isStrideDigit (c : Char) : Bool := (digitValue? c).isSome

def parse (s : String) : Except FrequencyFault Frequency :=
  let s := trimmed isBlank s.toList
  let stride := strideOf s
  match named? ((s.drop stride.length).dropWhile isBlank), strideFault? stride with
  | none, _ => .error .unknown
  | some _, some f => .error f
  | some g, none => .ok g

/-- The names under which monthly figures are asked for, in any case. -/
def isMonthlyName (s : String) : Bool := ["M", "MONTHLY"].contains s.toUpper

def label (f : Frequency) (last : Int) : String :=
  let yearText (y : Int) := padded 4 y
  match f with
  | .monthly => String.ofList (yearText (last / 12) ++ '-' :: padded 2 (last % 12 + 1))
  | .quarterly _ =>
    let left := (f.anchor - last) % 12
    String.ofList (yearText ((last + left) / 12) ++ 'Q' :: integer (4 - left / 3))
  | .yearly _ => String.ofList (yearText (last / 12))

end Frequency

end Cashflow

import Cashflow.Calendar.Key

/-!
# Dates that exist

The calendar of the years 1 to 9999: month numbers from 1 to 12 and no day beyond the end of its
month. `Date.civil` says of a date whether it is one of these, and otherwise what is wrong: the
parts are first judged as machine numbers, in order, then by the calendar.

Days are numbered from the first one of the year 1 (`Date.number`). Weeks start on Mondays, and the
first week of a year is the one with its first Thursday (`Date.ofWeek?`).
-/

namespace Cashflow

inductive CivilFault where
  | beyondWord
  | aboveMachineNumbers
  | belowMachineNumbers
  | year (number : Int)
  | month
  | day
deriving DecidableEq

def CivilFault.message : CivilFault → String
  | .beyondWord => "Python int too large to convert to C long"
  | .aboveMachineNumbers => "signed integer is greater than maximum"
  | .belowMachineNumbers => "signed integer is less than minimum"
  | .year y => s!"year {String.ofList (Text.integer y)} is out of range"
  | .month => "month must be in 1..12"
  | .day => "day is out of range for month"

namespace Date

def isLeapYear (y : Int) : Bool := y % 4 = 0 && (y % 100 ≠ 0 || y % 400 = 0)

def daysInMonth (y m : Int) : Int :=
  if m = 2 then if isLeapYear y then 29 else 28
  else if m = 4 ∨ m = 6 ∨ m = 9 ∨ m = 11 then 30
  else 31

/-- Where words of 64 bits end. -/
def wordEnd : Int := Nat.pow 2 63

/-- Where machine numbers of 32 bits end. -/
def machineEnd : Int := Nat.pow 2 31

/-- The fault of a date part that fits no machine number. -/
def machineFault? (i : Int) : Option CivilFault :=
  if i < -wordEnd ∨ wordEnd ≤ i then some .beyondWord
  else if machineEnd ≤ i then some .aboveMachineNumbers
  else if i < -machineEnd then some .belowMachineNumbers
  else none

def civil (d : Date) : Except CivilFault Date :=
  match [d.year, d.month, d.day].findSome? machineFault? with
  | some f => .error f
  | none =>
    if d.year < 1 ∨ 9999 < d.year then .error (.year d.year)
    else if ¬ d.HasMonth then .error .month
    else if d.day < 1 ∨ daysInMonth d.year d.month < d.day then .error .day
    else .ok d

/-! ## Numbers of days -/

def daysInYear (y : Int) : Int := if isLeapYear y then 366 else 365

/-- The days from the start of the year 1 to that of another. -/
def daysBeforeYear (y : Int) : Int :=
  let before := y - 1
  before * 365 + before / 4 - before / 100 + before / 400

/-- The days of a year in front of a month. -/
def daysBeforeMonth (y m : Int) : Int :=
  (List.range (m - 1).toNat).foldl (fun n (i : Nat) => n + daysInMonth y (i + 1)) 0

/-- The number of a day, one for the first day of the year 1. -/
def number (d : Date) : Int := daysBeforeYear d.year + daysBeforeMonth d.year d.month + d.day

/-! ## Weeks -/

/-- The weekday of the first of January, Monday being zero. -/
def firstWeekday (y : Int) : Int := daysBeforeYear y % 7

/-- The day that lies `n` days behind the start of the month `m`, for the next months of the year. -/
def afterMonthStart (y : Int) (n : Int) : Nat → Int → Date
  | 0, m => ⟨y, m, n + 1⟩
  | left + 1, m =>
    if n < daysInMonth y m then ⟨y, m, n + 1⟩
    else afterMonthStart y (n - daysInMonth y m) left (m + 1)

/-- The day that lies `n` days behind the first of January, less than a year before or after it. -/
def ofYearDay (y n : Int) : Date :=
  if n < 0 then afterMonthStart (y - 1) (n + daysInYear (y - 1)) 11 1
  else if n < daysInYear y then afterMonthStart y n 11 1
  else afterMonthStart (y + 1) (n - daysInYear y) 11 1

/-- The weeks of a year: one more in a year that starts on a Thursday, or on a Wednesday if it is a
leap year. -/
def weeksInYear (y : Int) : Nat :=
  if firstWeekday y = 3 ∨ (firstWeekday y = 2 ∧ isLeapYear y) then 53 else 52

/-- The day of a week of a year, weekdays counted from one. Weeks in front of the year 1 lie in no
month. -/
def ofWeek? (y : Int) (week weekday : Nat) : Option Date :=
  if 1 ≤ week ∧ week ≤ weeksInYear y ∧ 1 ≤ weekday ∧ weekday ≤ 7 then
    let monday := if firstWeekday y ≤ 3 then -firstWeekday y else 7 - firstWeekday y
    some (if y < 1 then ⟨1, 0, 1⟩ else ofYearDay y (monday + (week - 1) * 7 + (weekday - 1)))
  else none

end Date

end Cashflow

import Cashflow.Calendar.Civil
import Cashflow.Calendar.Names
import Cashflow.Text.Figure
import Cashflow.Text.Numeral

/-!
# Days, months and quarters in short

* `Short.day?` : a month, a day and a year of four figures between marks (`3/14/2025`), the day in
  front if the first number is above 12; or a month and a year (`03-2025`);
* `Short.quarter?` : a quarter and a year of two or four figures, in either order, perhaps with a
  dash (`2025Q1`, `1Q-25`);
* `Short.month?` : a year of four characters, a year and a month of six, or the short name of a month
  and a year (`JAN 2025`).

Texts are in capitals. Every form is judged by its shape; a day that has the shape and is none of the
calendar is a fault, and so is a quarter beyond the fourth.
-/

namespace Cashflow

/-- Why a text of a short form is no day. -/
inductive ShortFault where
  | civil (fault : CivilFault)
  /-- Neither number is a month, or one of them is no day. -/
  | numbers (first second : Nat)
  | quarter
deriving DecidableEq

namespace Short
open Cashflow.Text

def isMark (c : Char) : Bool := [' ', '/', '-', '.'].contains c

/-- The rest behind a mark. -/
def afterMark? : List Char → Option (List Char)
  | [] => none
  | c :: r => if isMark c then some r else none

/-- A year of four figures at the end of a text. -/
def yearAtEnd? (s : List Char) : Option Nat :=
  match figures? 4 s with
  | some (y, []) => if 1000 ≤ y then some y else none
  | _ => none

/-- Two numbers and the year behind them. -/
def twoAndYear? (s : List Char) : Option (Nat × Nat × Nat) := do
  let (a, s) ← figuresUpTo2? s
  let (b, s) ← figuresUpTo2? (← afterMark? s)
  return (a, b, ← yearAtEnd? (← afterMark? s))

/-- A number of two figures and the year behind it. A point between them is none of a date. -/
def oneAndYear? (s : List Char) : Option (Nat × Nat) := do
  let (a, s) ← figures? 2 s
  if s.head? = some '.' then none
  return (a, ← yearAtEnd? (← afterMark? s))

/-- A day of the calendar, if its numbers can be one of a month and one of a day. -/
def judged (year first second : Nat) (swaps : Bool) : Except ShortFault Date :=
  let isDay (n : Nat) : Bool := decide (1 ≤ n) && decide (n ≤ 31)
  if isDay first ∧ isDay second ∧ (first ≤ 12 ∨ second ≤ 12) then
    let d : Date := if 12 < first ∧ swaps then ⟨year, second, first⟩ else ⟨year, first, second⟩
    d.civil.mapError .civil
  else .error (.numbers first second)

def day? (s : List Char) : Option (Except ShortFault Date) :=
  match twoAndYear? s, oneAndYear? s with
  | some (a, b, y), _ => some (judged y a b true)
  | none, some (a, y) => some (judged y a 1 false)
  | none, none => none

/-! ## Quarters -/

/-- A quarter and a year as they are written; a year of two figures is one of this century. -/
structure QuarterText where
  quarter : List Char
  year : List Char
  century : Int := 0

/-- The `n` characters at the end of a text. -/
def last (n : Nat) (s : List Char) : List Char := s.drop (s.length - n)

/-- The place of the letter that names quarters. -/
def letterAt? (s : List Char) : Option Nat :=
  (((s.take 6).drop 1).findIdx? (· = 'Q')).map (· + 1)

/-- The parts of a quarter by the length of the text and the place of the letter. -/
def quarterText? (s : List Char) : Option QuarterText := do
  let i ← letterAt? s
  let n := s.length
  let dashBehind := decide (s[i + 1]? = some '-')
  let dashBefore := decide (s[i - 1]? = some '-')
  if i = 1 then
    if n = 4 ∨ (n = 5 ∧ dashBehind) then return ⟨s.take 1, last 2 s, 2000⟩
    else if n = 6 ∨ (n = 7 ∧ dashBehind) then return ⟨s.take 1, last 4 s, 0⟩
    else none
  else if i ≤ 3 then
    if n = 4 ∨ (n = 5 ∧ dashBefore) then return ⟨last 1 s, s.take 2, 2000⟩ else none
  else if n = 6 ∨ (n = 7 ∧ dashBefore) then return ⟨last 1 s, s.take 4, 0⟩
  else none

/-- A month of a year that the calendar has. -/
def monthOfYear? (year month : Int) : Option Date := (Date.civil ⟨year, month, 1⟩).toOption

/-- The first month of a quarter. -/
def quarter? (s : List Char) : Option (Except ShortFault Date) := do
  let t ← quarterText? s
  let quarter ← integer? t.quarter
  let year ← integer? t.year
  if quarter < 1 ∨ 4 < quarter then return .error .quarter
  return .ok (← monthOfYear? (t.century + year) (3 * quarter - 2))

/-! ## Months -/

/-- The short name of a month, blanks or a dash, and a year of four digits. -/
def namedMonth? (s : List Char) : Option Date := do
  let i ← Cashflow.month? (String.ofList (s.take 3))
  let year ← match s.drop 3 with
    | '-' :: r => some r
    | c :: r => if isBlank c then some (r.dropWhile isBlank) else none
    | [] => none
  if year.length ≠ 4 ∨ year.any fun c => (digitValue? c).isNone then none
  monthOfYear? (← natural? year) (i.val + 1)

def month? (s : List Char) : Option Date :=
  if s.length = 4 then (integer? s).bind fun y => monthOfYear? y 1
  else if s.length = 6 then do monthOfYear? (← integer? (s.take 4)) (← integer? (s.drop 4))
  else namedMonth? s

/-- The day of any of the forms. -/
def read? (s : List Char) : Option (Except ShortFault Date) :=
  day? s <|> quarter? s <|> (month? s).map .ok

end Short

end Cashflow

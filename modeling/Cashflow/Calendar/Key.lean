import Cashflow.Calendar.Date
import Cashflow.Text.Numeral

/-!
# Dates and months as text

* `Date.key` : year and two-digit month, the key of the ledger's months (`2025-01`);
* `Date.text` : four, two and two digits (`2025-01-15`), a minus sign counting as one of them;
* `Date.parse` : the reader of both, with the day 1 when it is left out;
* `Date.reachesUnwritten` : whether a window has a year that is too long to be written;
* `keyYear?` : the year in front of the first dash of a key; `keyYear` says why there is none, and
  refuses numerals that are too long.
-/

namespace Cashflow
open Cashflow.Text

namespace Date

def key (d : Date) : String := String.ofList (integer d.year ++ '-' :: padded 2 d.month)

def text (d : Date) : String :=
  String.ofList (padded 4 d.year ++ '-' :: padded 2 d.month ++ '-' :: padded 2 d.day)

/-- The months from `first` to `last`. -/
def months (first last : Date) : List Date :=
  (List.range (monthsBetween first last)).map fun i : Nat => first.startOfMonth.addMonths i

/-- The keys of the months from `first` to `last`. -/
def keys (first last : Date) : List String := (months first last).map key

/-! ## Years too long to be written -/

/-- The greatest year that has no more digits than a numeral may have. -/
def lastYear : Int := Nat.pow 10 digitLimit - 1

/-- Whether the year has more digits than that, before or after the year zero. -/
def isUnwritten (d : Date) : Bool := decide (lastYear < d.year.natAbs)

/-- Whether the window from `first` to `last` has a month that is not written. It is the first or the
second, which alone may lie further back than the one before, or else the first of all such months. -/
def reachesUnwritten (first last : Date) : Bool :=
  let first := first.startOfMonth
  let last := last.startOfMonth
  let second := first.addMonths 1
  decide (first ≤ last) &&
    (first.isUnwritten || (decide (second ≤ last) &&
      (second.isUnwritten || decide (⟨lastYear + 1, 1, 1⟩ ≤ last))))

/-- The months of a window before the first that is not written, for a window with such a month. -/
def monthsBeforeUnwritten (first : Date) : List Date :=
  if first.isUnwritten then []
  else if (first.startOfMonth.addMonths 1).isUnwritten then [first.startOfMonth]
  else window first ⟨lastYear, 12, 1⟩

/-- The keys of the months from `first` to `last`, unless one of them is not written. -/
def writtenKeys? (first last : Date) : Option (List String) :=
  let count := monthsBetween first last
  let month (i : Int) := first.startOfMonth.addMonths i
  if 0 < count ∧ ((month 0).isUnwritten ∨ (month (count - 1)).isUnwritten) then none
  else some (keys first last)

end Date

/-! ## Reading -/

/-- Why a text is no date. -/
inductive DateFault where
  | shape (text : String)
  | numeral (text : String)
  | month (number : Int) (text : String)
deriving DecidableEq

def DateFault.message : DateFault → String
  | .shape t => s!"Invalid date string '{t}', expected YYYY-MM[-DD]"
  | .numeral t => s!"Invalid date string '{t}'"
  | .month m t => s!"Invalid month {String.ofList (integer m)} in '{t}'"

/-- The pieces between dashes; a text without a dash is one piece. -/
def pieces : List Char → List (List Char)
  | [] => [[]]
  | c :: r =>
    if c = '-' then [] :: pieces r
    else match pieces r with
      | [] => [[c]]
      | p :: ps => (c :: p) :: ps

namespace Date

/-- Year, month and perhaps day between dashes. The month is checked, the day is not. -/
def parse (t : String) : Except DateFault Date :=
  let parts := pieces (trimmed isBlank t.toList)
  if parts.length = 2 ∨ parts.length = 3 then
    match parts.mapM readInteger with
    | .ok (y :: m :: rest) =>
      if 1 ≤ m ∧ m ≤ 12 then .ok ⟨y, m, rest.head?.getD 1⟩ else .error (.month m t)
    | _ => .error (.numeral t)
  else .error (.shape t)

end Date

/-- The text before the first dash of a key. -/
def keyHead (k : String) : List Char := k.toList.takeWhile (· ≠ '-')

/-- The year of a key; `none` when it has none in front, as for years below zero. -/
def keyYear? (k : String) : Option Int := integer? (keyHead k)

/-- The year of a key that comes from outside. -/
def keyYear (k : String) : Except NumeralFault Int := readInteger (keyHead k)

theorem pieces_ne_nil (s : List Char) : pieces s ≠ [] := by
  cases s with
  | nil => simp [pieces]
  | cons c r =>
    unfold pieces
    split
    · simp
    · split <;> simp

end Cashflow

import Cashflow.Calendar.Civil
import Cashflow.Text.Blank
import Cashflow.Text.Figure

/-!
# Days spelled out in full

A full spelling starts with a year of four figures and goes on with a month and a day, as far as they
are given: of one or two figures behind one and the same mark, or of two figures each without marks,
but then not with a month alone. Behind the day, a `T` or a blank and a time of day may follow, with
colons or without, a fraction of the second and a zone.

* `Spelled.read?` : the day of a full spelling that the calendar has in some year;
* a year in front of the first has a dash before it, and any number of figures if a mark comes behind.
-/

namespace Cashflow

/-- What is kept of the time of day behind a day. -/
structure TimeTraits where
  /-- Whether it counts to less than a millionth of a second. -/
  isFine : Bool := false
  hasZone : Bool := false

/-- A day that is spelled out. -/
structure Spelled where
  year : Int
  month : Nat := 1
  day : Nat := 1
  time : TimeTraits := {}

namespace Spelled
open Cashflow.Text

def isFigure (c : Char) : Bool := (figure? c).isSome

def startsWithFigure (s : List Char) : Bool := s.head?.any isFigure

/-- Figures between marks are one or two, others exactly two. -/
def pair? (apart : Bool) (s : List Char) : Option (Nat × List Char) :=
  if apart then figuresUpTo2? s else figures? 2 s

/-- A number of two figures that is below a bound; one of a single figure is always. -/
def below? (bound : Nat) (apart : Bool) (s : List Char) : Option (Nat × List Char) :=
  (pair? apart s).filter fun r => decide (r.1 < bound)

def areBlank (s : List Char) : Bool := s.all isPlainBlank

/-! ## Times of day -/

/-- How far a zone is away: hours, and perhaps minutes. -/
def isDistance (s : List Char) : Bool :=
  match below? 24 true s with
  | none => false
  | some (_, []) => true
  | some (_, s) =>
    let s := if s.head? = some ':' then s.tail else s
    (below? 60 true s).any fun r => areBlank r.2

/-- The rest of a time: a zone, or nothing. -/
def zone? (isFine : Bool) (s : List Char) : Option TimeTraits :=
  match s.dropWhile isPlainBlank with
  | [] => some { isFine }
  | 'Z' :: r => if areBlank r then some { isFine, hasZone := true } else none
  | c :: r => if (c = '+' ∨ c = '-') ∧ isDistance r then some { isFine, hasZone := true } else none

/-- The most figures that a fraction of a second has. -/
def fractionLimit : Nat := 18

/-- A fraction of a second and a zone. -/
def fraction? (s : List Char) : Option TimeTraits :=
  let width := min fractionLimit (s.takeWhile isFigure).length
  zone? (decide (6 < width)) (s.drop width)

def seconds? (colons : Bool) (s : List Char) : Option TimeTraits := do
  match ← below? 60 colons s with
  | (_, '.' :: r) => fraction? r
  | (_, s) => zone? false s

/-- The rest behind a colon where there are colons. -/
def next? (colons : Bool) : List Char → Option (List Char)
  | ':' :: r => if colons then some r else none
  | s => if !colons ∧ startsWithFigure s then some s else none

def minutes? (colons : Bool) (s : List Char) : Option TimeTraits := do
  let (_, s) ← below? 60 colons s
  match next? colons s with
  | some s => seconds? colons s
  | none => zone? false s

/-- A time of day; hours of one figure need minutes behind a colon. -/
def time? (s : List Char) : Option TimeTraits := do
  let (_, r) ← below? 24 true s
  let two := decide (r.length + 2 = s.length)
  match r with
  | ':' :: r => minutes? true r
  | r =>
    if startsWithFigure r then minutes? false r
    else if two then zone? false r
    else none

/-! ## Days -/

/-- The marks between year, month and day. -/
def isMark (c : Char) : Bool := ['-', '.', '/', '\\', ' '].contains c

/-- The day and what comes behind it. -/
def day? (d : Spelled) (apart : Bool) (s : List Char) : Option Spelled := do
  let (day, s) ← pair? apart s
  if day < 1 ∨ Date.daysInMonth d.year d.month < day then none
  let d := { d with day }
  match s with
  | [] => return d
  | c :: r => if c = 'T' ∨ c = ' ' then return { d with time := ← time? r } else none

/-- The month and what comes behind it. -/
def month? (d : Spelled) (mark : Option Char) (s : List Char) : Option Spelled := do
  let (month, s) ← pair? mark.isSome s
  if month < 1 ∨ 12 < month then none
  let d := { d with month }
  match mark, s with
  | some _, [] => return d
  | none, s => day? d false s
  | some mark, c :: r => if c = mark then day? d true r else none

/-- What comes behind a year. -/
def afterYear? (year : Int) : List Char → Option Spelled
  | [] => some { year }
  | c :: r =>
    if isFigure c then month? { year } none (c :: r)
    else if isMark c then month? { year } (some c) r
    else none

/-- A year of four figures, or none, which is the year zero. -/
def ofYear? (sign : Int) (s : List Char) : Option Spelled :=
  match s, figures? 4 s with
  | [], _ => none
  | _, some (y, s) => afterYear? (sign * y) s
  | s, none => afterYear? 0 s

/-- A year of any number of figures. -/
def ofLongYear? (sign : Int) (s : List Char) : Option Spelled :=
  let width := (s.takeWhile isFigure).length
  (figures? width s).bind fun r => if r.2.head?.any isMark then afterYear? (sign * r.1) r.2 else none

def read? : List Char → Option Spelled
  | '-' :: r => ofYear? (-1) r <|> ofLongYear? (-1) r
  | s =>
    match s.dropWhile isPlainBlank with
    | '-' :: r => ofYear? 1 r
    | s => ofYear? 1 s

/-- Where days of times that count to less than a millionth of a second lie. -/
def isWithinFine (d : Date) : Bool := d.within ⟨1677, 9, 21⟩ ⟨2262, 4, 11⟩

def date (s : Spelled) : Date := ⟨s.year, s.month, s.day⟩

end Spelled

end Cashflow

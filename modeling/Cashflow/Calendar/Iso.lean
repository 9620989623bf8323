import Cashflow.Calendar.Civil
import Cashflow.Calendar.Clock
import Cashflow.Text.Figure
import Cashflow.Text.Quoted

/-!
# Days and moments in the standard notation

A day is written `2025-03-04` or `20250304`, or by the week of its year as `2025-W10-2`, `2025W102`
or, for a Monday, `2025-W10`. A moment is a day and perhaps, behind any one character, a time of day:
hours, minutes and seconds of two figures each, all set apart by colons or none, a fraction behind the
last of them, and a zone as `Z` or as a signed time. A fraction counts to the millionth.

* `Date.ofIso` : the reader of days;
* `Date.momentOfIso` : the reader of moments, zone first judged, then the day, then the time.

A single plain character behind a pair of figures is passed over in front of a zone, and so is what
follows six figures of a fraction.
-/

namespace Cashflow
open Cashflow.Text

/-- Why a text is no day or moment of the calendar. -/
inductive IsoFault where
  | malformed (text : String)
  | civil (fault : CivilFault)
  | clock (fault : ClockFault)
  /-- A zone a day or more away. -/
  | zone (micros : Int)
deriving DecidableEq

def IsoFault.message : IsoFault → String
  | .malformed t => "Invalid isoformat string: " ++ quoted t
  | .civil f => f.message
  | .clock f => f.message
  | .zone z => "offset must be a timedelta strictly between -timedelta(hours=24) and " ++
    "timedelta(hours=24), not " ++ spanText z ++ "."

namespace Iso

/-! ## Days -/

/-- The rest behind an expected character. -/
def after? (c : Char) : List Char → Option (List Char)
  | [] => none
  | d :: r => if d = c then some r else none

/-- The rest behind a dash where dashes set the parts apart. -/
def afterDash? (dashed : Bool) (s : List Char) : Option (List Char) :=
  if dashed then after? '-' s else some s

/-- The day of a week of a year, of a text that is `limit` long and has come to `s` at `place`. -/
def weekDay? (limit place : Nat) (dashed : Bool) (year : Nat) (s : List Char) : Option Date := do
  let (week, s) ← figures? 2 s
  if place + 2 < limit then
    let (weekday, _) ← figures? 1 (← afterDash? dashed s)
    Date.ofWeek? year week weekday
  else Date.ofWeek? year week 1

/-- The day in front of a text, of which `limit` characters belong to it. -/
def day? (limit : Nat) (s : List Char) : Option Date := do
  let (year, s) ← figures? 4 s
  let dashed := s.head? = some '-'
  let s := if dashed then s.tail else s
  match after? 'W' s with
  | some s => weekDay? limit (if dashed then 6 else 5) dashed year s
  | none =>
    let (month, s) ← figures? 2 s
    let (day, _) ← figures? 2 (← afterDash? dashed s)
    return ⟨year, month, day⟩

/-- How many characters are the day of a moment. A week without its day is told from one with it by
the number of figures behind it; a dash behind a week belongs to the time if figures follow two
places on. -/
def dayLength (s : List Char) : Nat :=
  let isFigure (c : Char) : Bool := (figure? c).isSome
  if s.length = 7 then 7
  else if s[4]? = some '-' then
    if s[5]? ≠ some 'W' then 10
    else if s[8]? = some '-' ∧ ¬ (s[10]?).any isFigure then 10
    else 8
  else if s[4]? = some 'W' then
    let finish := 7 + ((s.drop 7).takeWhile isFigure).length
    if finish < 9 then finish else if finish % 2 = 0 then 7 else 8
  else 8

/-! ## Times of day -/

/-- A time in front of a text, and whether something is left unread behind it. -/
structure Timed where
  clock : Clock
  more : Bool

/-- A fraction of a second, which needs a figure. -/
def fraction? (followed : Bool) (s : List Char) : Option (Nat × Bool) := do
  let width := min 6 s.length
  let (n, rest) ← figures? width s
  return (n * Nat.pow 10 (6 - width), followed || !(rest.dropWhile fun c => (figure? c).isSome).isEmpty)

/-- The numbers of a time from the part that has `left` more parts behind it, and its fraction.
`colons` is known from the second part on; `followed` is whether a zone comes behind the text. -/
def pairs? (followed : Bool) (colons : Option Bool) :
    Nat → List Char → Option (List Nat × Nat × Bool)
  | left, s => do
    let (n, rest) ← figures? 2 s
    match left, rest with
    | _, [] => return ([n], 0, followed)
    | _, [c] => if c.utf8Size = 1 then return ([n], 0, true) else none
    | left, c :: rest =>
      let colons := colons.getD (c = ':')
      let fractionFrom (s : List Char) := do
        let (micro, more) ← fraction? followed s
        return ([n], micro, more)
      if c = '.' ∨ c = ',' then fractionFrom rest
      else if colons ∧ c ≠ ':' then none
      else
        let rest := if colons then rest else c :: rest
        match left with
        | 0 => fractionFrom rest
        | left + 1 => do
          let (ns, micro, more) ← pairs? followed (some colons) left rest
          return (n :: ns, micro, more)

def time? (followed : Bool) (s : List Char) : Option Timed := do
  let (ns, micro, more) ← pairs? followed none 2 s
  return ⟨⟨ns[0]?.getD 0, ns[1]?.getD 0, ns[2]?.getD 0, micro, none⟩, more⟩

def isZoneMark (c : Char) : Bool := c = '+' || c = '-' || c = 'Z'

/-- The millionths of a second in a time, which count only beside whole seconds. -/
def micros (c : Clock) : Int :=
  let seconds : Int := c.hour * 3600 + c.minute * 60 + c.second
  if seconds = 0 then 0 else seconds * Clock.secondLength + c.micro

/-- How far a zone is ahead of universal time. -/
def zone? : List Char → Option Int
  | ['Z'] => some 0
  | c :: s => do
    if c = 'Z' then none
    let t ← time? false s
    if t.more then none
    return if c = '-' then -micros t.clock else micros t.clock
  | [] => none

/-- A time of day and its zone. -/
def clock? (s : List Char) : Option Clock := do
  let front := s.takeWhile fun c => !isZoneMark c
  let behind := s.drop front.length
  let t ← time? (!behind.isEmpty) front
  if behind.isEmpty then if t.more then none else return t.clock
  else return { t.clock with zone := some (← zone? behind) }

end Iso

namespace Date

/-- A day in the standard notation. -/
def ofIso (t : String) : Except IsoFault Date :=
  let limit := t.utf8ByteSize
  match if [7, 8, 10].contains limit then Iso.day? limit t.toList else none with
  | some d => d.civil.mapError .civil
  | none => .error (.malformed t)

/-- The day and the time of day of a text. -/
def momentParts? (s : List Char) : Option (Date × Clock) := do
  let length := Iso.dayLength s
  let day ← Iso.day? length s
  if s.length ≤ length then return (day, {})
  return (day, ← Iso.clock? (s.drop (length + 1)))

/-- A moment in the standard notation. -/
def momentOfIso (t : String) : Except IsoFault (Date × Clock) := do
  match momentParts? t.toList with
  | none => .error (.malformed t)
  | some (day, clock) =>
    match clock.zone.filter fun z => decide (Clock.dayLength ≤ z.natAbs) with
    | some z => .error (.zone z)
    | none => do
      let day ← day.civil.mapError .civil
      match clock.fault? with
      | some f => .error (.clock f)
      | none => return (day, clock)

end Date

end Cashflow

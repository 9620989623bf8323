import Cashflow.Calendar.Civil
import Cashflow.Calendar.Clock
import Cashflow.Calendar.Names
import Cashflow.Text.Numeral
import Cashflow.Text.Token

/-!
# Dates in free text

A day and a time of day are found among the words, numbers and marks of a text in capitals, from left
to right. What names no part of either has to be a filler word.

* Parts of the day (`Part`) stand in any order, set apart by marks or blanks. A month may be named. A
  number of more than two digits is the year, and there can be only one; `resolve?` finds the places
  of the others by their sizes. A run of six figures is a year, a month and a day of two each; one of
  eight, twelve or fourteen starts with a year of four.
* Times have colons (`10:20:30`), units (`10h 20m`), or `AM` or `PM` behind the hour; two or four
  figures behind a whole day are hours and minutes.
* A zone is named by up to five letters or is a signed time behind the hour. Behind a name the sign
  says which way universal time lies.

`Prose.read` is the day and the time of day; missing parts are those of the first of January of the
year 1. A year of two digits lies between 1976 and 2075. Null characters are as if they were not
there.
-/

namespace Cashflow

/-- Why a text has no day and time of day. -/
inductive ProseFault where
  | unreadable
  /-- Nothing but filler words and names of weekdays. -/
  | nothing
  /-- A number beyond 32 bits. -/
  | overflow
  | civil (fault : CivilFault)
  | clock (fault : ClockFault)
  /-- A zone a day or more away. -/
  | zone
  /-- A zone of an unknown name. -/
  | zoneName (name : String)
deriving DecidableEq

namespace Prose
open Cashflow.Text

/-! ## Vocabulary -/

def wordOf (t : Token) : String := String.ofList t

def fillers : List String :=
  [" ", ".", ",", ";", "-", "/", "'", "AT", "ON", "AND", "AD", "M", "T", "OF", "ST", "ND", "RD", "TH"]

def isFiller (t : Token) : Bool := fillers.contains (wordOf t)

def isWeekday (t : Token) : Bool := weekdayNames.contains (wordOf t)

/-- The number of a month by its name. -/
def monthOf? (t : Token) : Option Nat := (monthNamed? (wordOf t)).map fun i => i.val + 1

/-- The units of a time, each smaller than the one before. -/
def units : List (List String) :=
  [["H", "HOUR", "HOURS"], ["M", "MINUTE", "MINUTES"], ["S", "SECOND", "SECONDS"]]

def unit? (t : Token) : Option Nat := units.findIdx? fun names => names.contains (wordOf t)

inductive DayHalf where
  | am
  | pm
deriving DecidableEq

def half? (t : Token) : Option DayHalf :=
  if ["AM", "A"].contains (wordOf t) then some .am
  else if ["PM", "P"].contains (wordOf t) then some .pm
  else none

/-- The hour of a day for one of its half. -/
def DayHalf.hour (half : DayHalf) (hour : Nat) : Nat :=
  match half with
  | .am => if hour = 12 then 0 else hour
  | .pm => if hour < 12 then hour + 12 else hour

def isUniversal (t : Token) : Bool := ["UTC", "GMT", "Z"].contains (wordOf t)

/-- Words that are numbers without a size. -/
def isSizeless (t : Token) : Bool := ["NAN", "INF", "INFINITY"].contains (wordOf t)

/-! ## Numbers -/

structure Figures where
  token : Token
  whole : Nat
  /-- What stands behind the point. -/
  decimals : Token

namespace Figures

def ofToken? (t : Token) : Option Figures :=
  let front := t.takeWhile isDigit
  match t.drop front.length with
  | [] => (natural? front).map fun n => ⟨t, n, []⟩
  | '.' :: r => if Token.isDigits r then (natural? front).map fun n => ⟨t, n, r⟩ else none
  | _ => none

def decimalValue (n : Figures) : Nat := (natural? n.decimals).getD 0

def exceeds (n : Figures) (bound : Nat) : Bool :=
  decide (bound < n.whole) || (decide (bound = n.whole) && decide (n.decimalValue ≠ 0))

/-- What is behind the point in sixtieths, if it is not zero. -/
def sixtieths? (n : Figures) : Option Nat :=
  if n.decimalValue = 0 then none else some (60 * n.decimalValue / Nat.pow 10 n.decimals.length)

end Figures

/-- A whole number from outside. -/
def number? (t : Token) : Option Nat := if digitLimit < t.length then none else natural? t

/-- Seconds and millionths. -/
def seconds? (t : Token) : Option (Nat × Nat) :=
  match t.span (· ≠ '.') with
  | (whole, []) => (number? whole).map fun n => (n, 0)
  | (whole, _ :: r) => do
    let n ← number? whole
    let micro ← number? ((r ++ List.replicate (6 - r.length) '0').take 6)
    return (n, micro)

/-! ## Parts of a day -/

inductive Role where
  | year
  | month
deriving DecidableEq

structure Part where
  value : Nat
  /-- What the part is known to be. -/
  role : Option Role := none

def isRole (role : Role) (p : Part) : Bool := p.role = some role

/-- One part more; there can be one known year and one known month. -/
def place (ps : List Part) (p : Part) : Option (List Part) :=
  if p.role.any fun role => ps.any (isRole role) then none else some (ps ++ [p])

/-- Digits as a part, the year if there are more than two of them. -/
def placeDigits (ps : List Part) (t : Token) : Option (List Part) := do
  place ps ⟨← number? t, if t.isDigits ∧ 2 < t.length then some .year else none⟩

/-- A number as a part, the year if it exceeds a hundred. -/
def placeNumber (ps : List Part) (n : Figures) : Option (List Part) :=
  place ps ⟨n.whole, if n.exceeds 100 then some .year else none⟩

def placeMonth (ps : List Part) (month : Nat) : Option (List Part) := place ps ⟨month, some .month⟩

/-- The first of the years that two digits can mean, without its century. -/
def pivot : Nat := 76

/-- The year that a number means when it is not known to be written out. -/
def fullYear (y : Nat) : Nat := if y < pivot then 2000 + y else if y < 100 then 1900 + y else y

/-- Year, month and day, as far as they are given. -/
structure DayParts where
  year : Option Nat := none
  month : Option Nat := none
  day : Option Nat := none

/-- The parts of a day by their places. -/
def resolve? (ps : List Part) : Option DayParts :=
  let year? := ps.findIdx? (isRole .year)
  let month? := ps.findIdx? (isRole .month)
  match ps.map Part.value, year?, month? with
  | [], _, _ => some {}
  | [a], some _, _ => some { year := a }
  | [a], none, some _ => some { month := a }
  | [a], none, none => some (if 31 < a then { year := a } else { day := a })
  | [a, b], some 0, some _ => some { year := a, month := b }
  | [a, b], some _, some _ => some { year := b, month := a }
  | [a, b], none, some 0 => some (if 31 < b then { month := a, year := b } else { month := a, day := b })
  | [a, b], none, some _ => some (if 31 < a then { month := b, year := a } else { month := b, day := a })
  | [a, b], _, none =>
    some (if 31 < a then { year := a, month := b }
      else if 31 < b then { month := a, year := b }
      else { month := a, day := b })
  | [a, b, c], some 0, some 1 => some ⟨a, b, c⟩
  | [a, b, c], some 0, some _ => some ⟨a, c, b⟩
  | [a, b, c], some 1, some 0 => some ⟨b, a, c⟩
  | [a, b, c], some 1, some _ => some ⟨b, c, a⟩
  | [a, b, c], some _, some 0 => some ⟨c, a, b⟩
  | [a, b, c], some _, some _ => some ⟨c, b, a⟩
  | [a, b, c], none, some 0 => some (if 31 < b then ⟨b, a, c⟩ else ⟨c, a, b⟩)
  | [a, b, c], none, some 1 => some (if 31 < a then ⟨a, b, c⟩ else ⟨c, b, a⟩)
  | [a, b, c], none, some _ => some (if 31 < b then ⟨b, c, a⟩ else ⟨a, c, b⟩)
  | [a, b, c], year?, none =>
    some (if 31 < a ∨ year? = some 0 then ⟨a, b, c⟩
      else if 12 < a then ⟨c, b, a⟩
      else ⟨c, a, b⟩)
  | _, _, _ => none

/-! ## Reading on -/

/-- What has been found so far. -/
structure Reading where
  parts : List Part := []
  hour : Option Nat := none
  minute : Option Nat := none
  second : Option Nat := none
  micro : Option Nat := none
  /-- Seconds ahead of universal time. -/
  zone : Option Int := none
  zoneName : Option Token := none
  /-- Whether the sign that follows stands behind the name of a zone. -/
  isReversed : Bool := false

namespace Reading

/-- Whether a number can be the day of the month that is known so far, if any is. -/
def couldBeDay (r : Reading) (n : Figures) : Bool :=
  let last : Int :=
    match r.parts.find? (isRole .month), r.parts.find? (isRole .year) with
    | none, _ => 31
    | some m, none => Date.daysInMonth 2000 m.value
    | some m, some y => Date.daysInMonth y.value m.value
  decide (1 ≤ n.whole) && !n.exceeds last.toNat

def couldBeZone (r : Reading) (t : Token) : Bool :=
  r.hour.isSome && r.zone.isNone && r.zoneName.isNone && decide (t.length ≤ 5) &&
    t.all fun c => decide ('A' ≤ c) && decide (c ≤ 'Z')

/-- A number as so many of a unit; what is behind the point counts in the next. -/
def putUnit (r : Reading) (n : Figures) : Nat → Option Reading
  | 0 => some { r with hour := some n.whole, minute := n.sixtieths? <|> r.minute }
  | 1 => some { r with minute := some n.whole, second := n.sixtieths? }
  | 2 => do
    let (second, micro) ← seconds? n.token
    return { r with second := some second, micro := some micro }
  | _ => some r

end Reading

/-- The place of the unit of the number at `i`: behind it, perhaps behind a blank, or else in front of
it; in front of a blank only for the last number. -/
def unitPlace? (ts : Array Token) (i : Nat) : Option Nat :=
  let hasUnit (j : Nat) : Bool := (ts[j]?.bind unit?).isSome
  if hasUnit (i + 1) then some (i + 1)
  else if ts[i + 1]? = some [' '] ∧ hasUnit (i + 2) then some (i + 2)
  else if 0 < i ∧ hasUnit (i - 1) then some (i - 1)
  else if 1 < i ∧ i + 1 = ts.size ∧ ts[i - 1]? = some [' '] ∧ hasUnit (i - 2) then some (i - 2)
  else none

/-- Six figures or more as hours, minutes and seconds. -/
def clockRow (r : Reading) (t : Token) : Option Reading := do
  let hour ← number? (t.take 2)
  let minute ← number? ((t.drop 2).take 2)
  let (second, micro) ← seconds? (t.drop 4)
  return { r with hour := some hour, minute := some minute, second := some second, micro := some micro }

/-- Eight, twelve or fourteen figures as a day and perhaps a time. -/
def dayRow (r : Reading) (t : Token) : Option Reading := do
  let parts ← placeDigits r.parts (t.take 4)
  let parts ← placeDigits parts ((t.drop 4).take 2)
  let r := { r with parts := ← placeDigits parts ((t.drop 6).take 2) }
  if t.length = 8 then return r
  let r := { r with
    hour := some (← number? ((t.drop 8).take 2)), minute := some (← number? ((t.drop 10).take 2)) }
  if t.length = 12 then return r
  return { r with second := some (← number? (t.drop 12)) }

/-- A time with colons, whose hour stands at `i`. -/
def colonTime (ts : Array Token) (i : Nat) (n : Figures) (r : Reading) : Option (Nat × Reading) := do
  let minute ← Figures.ofToken? (← ts[i + 2]?)
  let r := { r with hour := some n.whole, minute := some minute.whole, second := minute.sixtieths? }
  match ts[i + 3]?, ts[i + 4]? with
  | some [':'], some t => do
    let (second, micro) ← seconds? t
    return (4, { r with second := some second, micro := some micro })
  | _, _ => return (2, r)

/-- A member of a day between marks, a number or the name of a month. -/
def placeMember (ps : List Part) (t : Token) : Option (List Part) :=
  match monthOf? t with
  | some m => placeMonth ps m
  | none => placeDigits ps t

/-- A day with marks, whose first member stands at `i` and its mark behind it. -/
def markedDay (ts : Array Token) (i : Nat) (n : Figures) (r : Reading) : Option (Nat × Reading) := do
  let parts ← placeDigits r.parts n.token
  match ts[i + 2]? with
  | none => return (1, { r with parts })
  | some second =>
    if isFiller second then return (1, { r with parts })
    let parts ← if second.isDigits then placeDigits parts second else
      placeMonth parts (← monthOf? second)
    if ts[i + 3]? ≠ ts[i + 1]? then return (2, { r with parts })
    return (4, { r with parts := ← placeMember parts (← ts[i + 4]?) })

/-- Reads the number at `i`; the answer starts with the count of the tokens that it took beyond it. -/
def numberStep (ts : Array Token) (i : Nat) (n : Figures) (r : Reading) : Option (Nat × Reading) :=
  let next := ts[i + 1]?
  let t := n.token
  if r.parts.length = 3 ∧ (t.length = 2 ∨ t.length = 4) ∧ r.hour.isNone ∧
      next.all fun u => u ≠ [':'] ∧ (unit? u).isNone then do
    let hour ← number? (t.take 2)
    if t.length = 2 then return (0, { r with hour := some hour })
    return (0, { r with hour := some hour, minute := some (← number? (t.drop 2)) })
  else if t.length = 6 ∨ t.findIdx? (· = '.') = some 6 then
    if r.parts.isEmpty ∧ ¬ t.contains '.' then do
      let parts ← placeDigits [] (t.take 2)
      let parts ← placeDigits parts ((t.drop 2).take 2)
      return (0, { r with parts := ← placeDigits parts (t.drop 4) })
    else (clockRow r t).map fun r => (0, r)
  else if [8, 12, 14].contains t.length then (dayRow r t).map fun r => (0, r)
  else match unitPlace? ts i with
  | some j =>
    let unit := (ts[j]?.bind unit?).getD 0
    (r.putUnit n (if i < j then unit else unit + 1)).map fun r => (j - i, r)
  | none =>
    if next = some [':'] ∧ (ts[i + 2]?).isSome then colonTime ts i n r
    else if next.any fun u => [['-'], ['/'], ['.']].contains u then markedDay ts i n r
    else if next.all isFiller then
      match ts[i + 2]?.bind half? with
      | some half => some (2, { r with hour := some (half.hour n.whole) })
      | none => do return (1, { r with parts := ← placeNumber r.parts n })
    else match next.bind half? with
    | some half =>
      if n.whole < 24 then some (1, { r with hour := some (half.hour n.whole) })
      else if r.couldBeDay n then do return (0, { r with parts := ← placeNumber r.parts n })
      else none
    | none =>
      if r.couldBeDay n then do return (0, { r with parts := ← placeNumber r.parts n }) else none

/-- Reads the name of a month at `i`, with what belongs to it behind a mark or behind `OF`. -/
def monthStep (ts : Array Token) (i month : Nat) (r : Reading) : Option (Nat × Reading) := do
  let parts ← placeMonth r.parts month
  match ts[i + 1]? with
  | none => return (0, { r with parts })
  | some mark =>
    if mark = ['-'] ∨ mark = ['/'] then
      let parts ← placeDigits parts (← ts[i + 2]?)
      if ts[i + 3]? ≠ some mark then return (2, { r with parts })
      return (4, { r with parts := ← placeDigits parts (← ts[i + 4]?) })
    match ts[i + 2]?, ts[i + 3]?, ts[i + 4]? with
    | some of, some [' '], some year =>
      if mark = [' '] ∧ wordOf of = "OF" then
        if year.isDigits then
          return (4, { r with parts := ← place parts ⟨fullYear (← number? year), some .year⟩ })
        else return (4, { r with parts })
      else return (0, { r with parts })
    | _, _, _ => return (0, { r with parts })

/-- Reads the name of a zone at `i`. A signed number behind universal time is the zone itself. -/
def zoneNameStep (ts : Array Token) (i : Nat) (t : Token) (r : Reading) : Nat × Reading :=
  let signed := (ts[i + 1]?).any fun u => u = ['+'] ∨ u = ['-']
  if signed then (0, { r with zoneName := if isUniversal t then none else some t, isReversed := true })
  else (0, { r with zoneName := some t, zone := if isUniversal t then some 0 else none })

/-- Reads the distance of a zone, whose sign stands at `i`, and perhaps its name in brackets. -/
def zoneStep (ts : Array Token) (i : Nat) (sign : Token) (r : Reading) : Option (Nat × Reading) := do
  let t ← ts[i + 1]?
  let (hours, minutes, extra) ←
    if t.length = 4 then do
      pure (← number? (t.take 2), ← number? (t.drop 2), 0)
    else if ts[i + 2]? = some [':'] then do
      pure (← number? t, ← number? (← ts[i + 3]?), 2)
    else if t.length ≤ 2 then do pure (← number? t, 0, 0)
    else none
  let seconds : Int := hours * 3600 + minutes * 60
  let isBehind := xor r.isReversed (sign = ['-'])
  let r := { r with zone := some (if isBehind then -seconds else seconds), isReversed := false }
  let j := i + extra
  match ts[j + 2]?, ts[j + 3]?, ts[j + 4]?, ts[j + 5]? with
  | some blank, some ['('], some name, some [')'] =>
    if isFiller blank ∧ 3 ≤ name.length ∧ { r with zone := none }.couldBeZone name then
      return (extra + 5, { r with zoneName := some name })
    else return (extra + 1, r)
  | _, _, _, _ => return (extra + 1, r)

/-- Reads the token at `i`; the answer starts with the count of the tokens that it took beyond it. -/
def step (ts : Array Token) (i : Nat) (t : Token) (r : Reading) : Option (Nat × Reading) :=
  if isSizeless t then none
  else match Figures.ofToken? t with
  | some n => numberStep ts i n r
  | none =>
    if isWeekday t then some (0, r)
    else match monthOf? t, half? t with
    | some month, _ => monthStep ts i month r
    | none, some half => do
      let hour ← r.hour
      if 12 < hour then none
      return (0, { r with hour := some (half.hour hour) })
    | none, none =>
      if r.couldBeZone t then some (zoneNameStep ts i t r)
      else if r.hour.isSome ∧ (t = ['+'] ∨ t = ['-']) then zoneStep ts i t r
      else if isFiller t then some (0, r)
      else none

/-- Reads the tokens from `i` on. -/
def readFrom (ts : Array Token) (i : Nat) (r : Reading) : Option Reading :=
  if h : i < ts.size then
    match step ts i ts[i] r with
    | some (extra, r) => readFrom ts (i + extra + 1) r
    | none => none
  else some r
termination_by ts.size - i

/-! ## The day and the time of day -/

/-- Where machine numbers of 32 bits end. -/
def machineEnd : Nat := Nat.pow 2 31

/-- The fault of a zone that is unknown or too far. Where `UTC` is named, it is the zone. -/
def Reading.zoneFault? (r : Reading) : Option ProseFault :=
  let name? := r.zoneName.map wordOf
  if name? = some "UTC" then none
  else match r.zone with
  | some z => if 86400 ≤ z.natAbs then some .zone else none
  | none => name?.map .zoneName

/-- The day and the time of day of what has been found. -/
def Reading.finish (r : Reading) : Except ProseFault (Date × Clock) :=
  match resolve? r.parts with
  | none => .error .unreadable
  | some p =>
    let written := r.parts.any (isRole .year)
    let year := p.year.map fun y => if written then y else fullYear y
    let found := [year, p.month, p.day, r.hour, r.minute, r.second, r.micro].filterMap id
    if found.isEmpty then .error .nothing
    else if found.any fun n => decide (machineEnd ≤ n) then .error .overflow
    else do
      let d ← (Date.mk (year.getD 1) (p.month.getD 1) (p.day.getD 1)).civil.mapError .civil
      let c : Clock := ⟨r.hour.getD 0, r.minute.getD 0, r.second.getD 0, r.micro.getD 0, none⟩
      match c.fault?, r.zoneFault? with
      | some f, _ => .error (.clock f)
      | none, some f => .error f
      | none, none => return (d, { c with zone := r.zone.map (Clock.secondLength * ·) })

/-- The day and the time of day in a text in capitals. -/
def read (s : List Char) : Except ProseFault (Date × Clock) :=
  match readFrom (tokens (s.filter (· ≠ '\x00'))).toArray 0 {} with
  | some r => r.finish
  | none => .error .unreadable

end Prose

end Cashflow

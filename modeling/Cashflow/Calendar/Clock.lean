import Cashflow.Text.Numeral

/-!
# Times of day

A time of day may say how far its zone is ahead of universal time.

* `Clock.fault?` : whether the parts are those of a time of day, and which is not;
* `Clock.text` : `05:06:07`, with six digits for a fraction of a second that is not zero, and the
  zone as `+01:00`, with seconds and their fraction when there are any;
* `Clock.parts` : hour, minute, second and millionths as numbers, without zeros at the end behind the
  minute;
* `spanText` : a span of time by its days, seconds and millionths.
-/

namespace Cashflow
open Cashflow.Text

structure Clock where
  hour : Nat := 0
  minute : Nat := 0
  second : Nat := 0
  /-- Millionths of a second. -/
  micro : Nat := 0
  /-- Millionths of a second ahead of universal time. -/
  zone : Option Int := none
deriving DecidableEq

/-- The part of a time of day that is out of its range. -/
inductive ClockFault where
  | hour
  | minute
  | second
  | micro
deriving DecidableEq

def ClockFault.message : ClockFault → String
  | .hour => "hour must be in 0..23"
  | .minute => "minute must be in 0..59"
  | .second => "second must be in 0..59"
  | .micro => "microsecond must be in 0..999999"

namespace Clock

/-- The first part that is out of its range. -/
def fault? (c : Clock) : Option ClockFault :=
  if 24 ≤ c.hour then some .hour
  else if 60 ≤ c.minute then some .minute
  else if 60 ≤ c.second then some .second
  else if 1000000 ≤ c.micro then some .micro
  else none

/-- The millionths of a second in a second. -/
def secondLength : Int := 1000000

/-- The millionths of a second in a day. -/
def dayLength : Int := 86400 * secondLength

def fractionText (micro : Nat) : List Char := if micro = 0 then [] else '.' :: padded 6 micro

/-- Hours and minutes with a sign, and seconds when there are any. -/
def zoneText (zone : Int) : List Char :=
  let n := zone.natAbs / 1000000
  let micro := zone.natAbs % 1000000
  let seconds :=
    if n % 60 = 0 ∧ micro = 0 then [] else ':' :: padded 2 (n % 60) ++ fractionText micro
  (if zone < 0 then '-' else '+') :: (padded 2 (n / 3600) ++ ':' :: padded 2 (n / 60 % 60) ++ seconds)

def text (c : Clock) : String :=
  String.ofList (padded 2 c.hour ++ ':' :: padded 2 c.minute ++ ':' :: padded 2 c.second ++
    fractionText c.micro ++ (c.zone.map zoneText).getD [])

def parts (c : Clock) : List Nat :=
  if c.micro ≠ 0 then [c.hour, c.minute, c.second, c.micro]
  else if c.second ≠ 0 then [c.hour, c.minute, c.second]
  else [c.hour, c.minute]

end Clock

/-- A span of time, whole days first, which alone may be below zero. -/
def spanText (micros : Int) : String :=
  let part (name : String) (n : Int) : List String :=
    if n = 0 then [] else [name ++ "=" ++ String.ofList (integer n)]
  let parts := part "days" (micros / Clock.dayLength) ++
    part "seconds" (micros % Clock.dayLength / Clock.secondLength) ++
    part "microseconds" (micros % Clock.secondLength)
  "datetime.timedelta(" ++ (if parts.isEmpty then "0" else String.intercalate ", " parts) ++ ")"

end Cashflow

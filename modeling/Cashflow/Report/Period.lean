import Cashflow.Decimal.Reader
import Cashflow.Report.Period.Prose
import Cashflow.Report.Period.Short
import Cashflow.Report.Period.Spelled
import Cashflow.Text.Encoding
import Cashflow.Text.Letter

/-!
# Months named in reports

A report places its rows on the line of months by their keys. A key may name its month, or a day in
it, in many ways, which are tried in turn: spelled out in full (`Spelled`), in short (`Short`), or in
free text (`Prose`). Capitals and small letters are alike.

* An empty key, or one that says it is none, names no month; its row lies in no period.
* A number below a thousand is no date, and neither is one of the letters `A`, `D`, `M` and `T`.
* A key with a dash in front is a year before the first, which no report can place.
* What cannot be read otherwise may be a week, named by its first and its last day
  (`1999-12-27/2000-01-02`); its month is that of the first one.
* Null characters at the end of a key do not count.

`Period.ofKey` is the place of the month on the line, or why there is none; `Period.places` are those
of all keys of a report.
-/

namespace Cashflow
open Cashflow.Text

/-- Why two days are not the first and the last of a week. -/
inductive WeekFault where
  /-- A third day behind them. -/
  | parts
  /-- Not six days from one to the other. -/
  | length
  /-- A zone behind the last day, and none behind the first. -/
  | zone
deriving DecidableEq

/-- Why a key has no place. -/
inductive PeriodFault where
  /-- Characters that cannot be encoded. -/
  | encoding (fault : EncodingFault)
  /-- A number too small, or a letter alone. -/
  | number
  /-- A full spelling of a day that the calendar does not have. -/
  | civil (fault : CivilFault)
  /-- A full spelling with a time too fine for its year. -/
  | fine
  | short (fault : ShortFault)
  | prose (fault : ProseFault)
  | week (fault : WeekFault)
deriving DecidableEq

def WeekFault.message : WeekFault → String
  | .parts => "too many values to unpack (expected 2)"
  | .length => "Could not parse as weekly-freq Period"
  | .zone => "Cannot subtract tz-naive and tz-aware datetime-like objects."

def ShortFault.message (key : String) : ShortFault → String
  | .civil f => f.message
  | .numbers a b =>
    s!"Invalid date specified ({String.ofList (digits a)}/{String.ofList (digits b)})"
  | .quarter =>
    s!"Incorrect quarterly string is given, quarter must be between 1 and 4: {key}"

def ProseFault.message (key : String) : ProseFault → String
  | .unreadable => s!"Unknown datetime string format, unable to parse: {key}"
  | .nothing => s!"Unable to parse datetime string: {key}"
  | .overflow => s!"Parsing \"{key}\" to datetime overflows"
  | .civil f => s!"{f.message}: {key}"
  | .clock f => s!"{f.message}: {key}"
  | .zone => "Parsed string \"" ++ key ++
      "\" gives an invalid tzinfo, which must be between -timedelta(hours=24) and timedelta(hours=24)"
  | .zoneName name => s!"Parsed string \"{key}\" included an un-recognized timezone \"{name}\"."

def PeriodFault.message (key : String) : PeriodFault → String
  | .encoding f => f.message
  | .number => s!"Given date string \"{key}\" not likely a datetime"
  | .civil f => f.message
  | .fine => s!"Out of bounds nanosecond timestamp: {key}"
  | .short f => f.message key
  | .prose f => f.message key
  | .week f => f.message

namespace Period

/-- Keys that name no month. -/
def isMissing (s : List Char) : Bool := ["", "NAT", "NAN"].contains (String.ofList s)

def isNumberChar (c : Char) : Bool :=
  (figure? c).isSome || isPlainBlank c || ['+', '-', '.', 'E'].contains c

/-- Texts that are rather a number or an abbreviation than a date. -/
def isNumber (s : List Char) : Bool :=
  s.head? ≠ some '0' && (["A", "D", "M", "T"].contains (String.ofList s) ||
    (s.all isNumberChar && (Decimal.number? s).any fun x => decide (x < 1000)))

/-! ## Days -/

/-- A day that a text names. -/
structure NamedDay where
  date : Date
  /-- Whether a zone stands behind it. -/
  hasZone : Bool

/-- The day that a text in capitals names. -/
def day (s : List Char) : Except PeriodFault NamedDay :=
  match encodingFault? (String.ofList s) with
  | some f => .error (.encoding f)
  | none =>
    if isNumber s then .error .number
    else match Spelled.read? s, s.head? with
    | some d, _ =>
      if d.time.isFine ∧ ¬ Spelled.isWithinFine d.date then .error .fine
      else (d.date.civil.mapError .civil).map fun date => ⟨date, d.time.hasZone⟩
    | none, some '-' => .error (.prose .unreadable)
    | none, _ =>
      match Short.read? s with
      | some r => (r.mapError .short).map fun date => ⟨date, false⟩
      | none => ((Prose.read s).mapError .prose).map fun r => ⟨r.1, r.2.zone.isSome⟩

/-! ## Weeks -/

/-- The shape of two days with a slash between them, zeros standing for digits. -/
def weekShape : List Char := "0000-00-00/0000-00-00".toList

/-- Whether a text starts like a week. -/
def isWeek (s : List Char) : Bool :=
  decide (weekShape.length ≤ s.length) &&
    (weekShape.zip s).all fun p => if p.1 = '0' then isDigit p.2 else p.1 = p.2

/-- The characters of the first day of a week. -/
def dayWidth : Nat := 10

/-- The first day of a week. -/
def weekStart (s : List Char) : Except PeriodFault Date :=
  let behind := s.drop (dayWidth + 1)
  if behind.contains '/' then .error (.week .parts)
  else do
    let first ← day (s.take dayWidth)
    let last ← day behind
    if first.hasZone ≠ last.hasZone then .error (.week .zone)
    else if last.date.number - first.date.number ≠ 6 then .error (.week .length)
    else return first.date

/-! ## Places -/

/-- A key in capitals, without the null characters at its end. -/
def capitalsOf (key : String) : List Char :=
  ((raised key).toList.reverse.dropWhile (· = '\x00')).reverse

/-- The day of a text in capitals, or the first of a week. -/
def firstDay (s : List Char) : Except PeriodFault Date :=
  match day s with
  | .ok d => .ok d.date
  | .error f => if isWeek s then weekStart s else .error f

/-- The place of the month that a key names, if it names any. -/
def ofKey (key : String) : Except PeriodFault (Option Int) :=
  let s := capitalsOf key
  if isMissing s then .ok none else (firstDay s).map fun d => some d.index

end Period

/-- A key that has no place. -/
structure MisplacedKey where
  key : String
  fault : PeriodFault
deriving DecidableEq

def MisplacedKey.message (m : MisplacedKey) : String :=
  m.fault.message (String.ofList (Period.capitalsOf m.key))

/-- The places of keys, or the first key that has none. -/
def Period.places : List String → Except MisplacedKey (List (Option Int))
  | [] => .ok []
  | key :: rest =>
    match Period.ofKey key with
    | .error f => .error ⟨key, f⟩
    | .ok p => (Period.places rest).map (p :: ·)

end Cashflow

import Cashflow.Calendar.Clock
import Cashflow.Calendar.Key
import Cashflow.Decimal.Layout
import Cashflow.Text.Quoted

/-!
# Document values

A document is a tree of nulls, booleans, numbers, texts, lists and mappings; a mapping keeps the
order of its keys. Documents built in memory may also hold days and moments of the calendar, and
dates of the simulator.

* `Value.shown` : a value on its own, texts as they are and days in figures;
* `Value.quoted` : a value as part of another, texts quoted and days by their parts;
* `Value.typeName` : the name under which a type appears in messages;
* `Value.isTruthy` : false for nulls, zeros and whatever is empty;
* `Value.depth` : the lists and mappings inside one another;
* `Value.isUnwritten` : whether a whole number inside has too many digits for a text.
-/

namespace Cashflow
open Cashflow.Text

inductive Value where
  | null
  | bool (b : Bool)
  | int (i : Int)
  | float (x : Float)
  | text (s : String)
  | list (items : List Value)
  | mapping (entries : List (String × Value))
  /-- A day of the calendar. -/
  | day (d : Date)
  /-- A day of the calendar with a time of day. -/
  | moment (d : Date) (clock : Clock)
  /-- A date of the simulator. -/
  | date (d : Date)

namespace Value

def typeName : Value → String
  | .null => "NoneType"
  | .bool _ => "bool"
  | .int _ => "int"
  | .float _ => "float"
  | .text _ => "str"
  | .list _ => "list"
  | .mapping _ => "dict"
  | .day _ => "datetime.date"
  | .moment _ _ => "datetime.datetime"
  | .date _ => "LocalDate"

def isTruthy : Value → Bool
  | .null => false
  | .bool b => b
  | .int i => i ≠ 0
  | .float x => !(x == 0)
  | .text s => s ≠ ""
  | .list items => !items.isEmpty
  | .mapping entries => !entries.isEmpty
  | .day _ | .moment _ _ | .date _ => true

def intText (i : Int) : String := String.ofList (integer i)

def boolText (b : Bool) : String := if b then "True" else "False"

/-- A name with arguments. -/
def call (name : String) (arguments : List String) : String :=
  name ++ "(" ++ String.intercalate ", " arguments ++ ")"

/-- A zone by its distance from universal time. -/
def zoneQuoted (zone : Int) : String :=
  if zone = 0 then "datetime.timezone.utc" else call "datetime.timezone" [spanText zone]

def dateParts (d : Date) : List Int := [d.year, d.month, d.day]

mutual

def quoted : Value → String
  | .null => "None"
  | .bool b => boolText b
  | .int i => intText i
  | .float x => Decimal.text x
  | .text s => Text.quoted s
  | .list items => "[" ++ String.intercalate ", " (quotedItems items) ++ "]"
  | .mapping entries => "\x7b" ++ String.intercalate ", " (quotedEntries entries) ++ "\x7d"
  | .day d => call "datetime.date" ((dateParts d).map intText)
  | .moment d clock =>
    call "datetime.datetime" ((dateParts d ++ clock.parts.map Int.ofNat).map intText ++
      (clock.zone.map fun z => "tzinfo=" ++ zoneQuoted z).toList)
  | .date d => s!"LocalDate(y={intText d.year}, m={intText d.month}, d={intText d.day})"

def quotedItems : List Value → List String
  | [] => []
  | v :: r => v.quoted :: quotedItems r

def quotedEntries : List (String × Value) → List String
  | [] => []
  | (k, v) :: r => (Text.quoted k ++ ": " ++ v.quoted) :: quotedEntries r

end

def shown : Value → String
  | .text s => s
  | .date d | .day d => d.text
  | .moment d clock => d.text ++ " " ++ clock.text
  | v => v.quoted

mutual

/-- How many lists and mappings stand inside one another, the value included. -/
def depth : Value → Nat
  | .list items => depthOfItems items + 1
  | .mapping entries => depthOfEntries entries + 1
  | _ => 0

def depthOfItems : List Value → Nat
  | [] => 0
  | v :: r => max v.depth (depthOfItems r)

def depthOfEntries : List (String × Value) → Nat
  | [] => 0
  | (_, v) :: r => max v.depth (depthOfEntries r)

end

mutual

/-- Whether a whole number inside is too long to be written. -/
def isUnwritten : Value → Bool
  | .int i => isTooLong i
  | .list items => isUnwrittenItem items
  | .mapping entries => isUnwrittenEntry entries
  | .date d => (dateParts d).any isTooLong
  | _ => false

def isUnwrittenItem : List Value → Bool
  | [] => false
  | v :: r => v.isUnwritten || isUnwrittenItem r

def isUnwrittenEntry : List (String × Value) → Bool
  | [] => false
  | (_, v) :: r => v.isUnwritten || isUnwrittenEntry r

end

/-- The value of a key among the entries of a mapping. -/
def lookup (k : String) : List (String × Value) → Option Value
  | [] => none
  | (k', v) :: r => if k' = k then some v else lookup k r

/-- The entries with a new value for a key that is there, or with one entry more. -/
def assign (k : String) (v : Value) : List (String × Value) → List (String × Value)
  | [] => [(k, v)]
  | (k', v') :: r => if k' = k then (k', v) :: r else (k', v') :: assign k v r

end Value

end Cashflow

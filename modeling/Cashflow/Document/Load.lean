import Cashflow.Document.LoadFault
import Cashflow.Scenario.Build
import Cashflow.Scenario.Wire

/-!
# Loading scenario documents

A document is a mapping with a name, defaults for a run (`start`, `end`, `initial_balance`) and a
list of events. An event is written like a scenario's own mapping, or in short by a `kind`:

* `one-off` with a `date`;
* `recurring` with a `start`, an optional `end` and a `frequency`;
* `event`, with conditions only.

Everything is checked in a fixed order and the first problem is reported with its place
(`Document.ofEntries`). `Document.toEntries` writes a scenario and its defaults so that they load again.
-/

namespace Cashflow

/-- Defaults for a run. -/
structure RunDefaults where
  first : Option Date := none
  last : Option Date := none
  opening : Float := 0

structure Document where
  scenario : Scenario Float
  defaults : RunDefaults := {}
  source : String

namespace Document

/-- Parts of a document are read to a value or a problem. -/
abbrev Read (π β : Type) := Except (Misread π) β

section Parts
variable {π : Type}

def problem {β : Type} (place : π) (p : Problem) : Read π β := .error (.problem place p)

def escape {β : Type} (f : ValueFault) : Read π β := .error (.escaped (.value f))

/-- A problem whose wording shows the value, which may have no text. -/
def problemShowing {β : Type} (place : π) (v : Value) (p : Problem) : Read π β :=
  if v.isUnwritten then escape .longNumber else problem place p

/-- Faults of keys, types and values are problems of the document; the others escape. -/
def judged {β : Type} (place : π) (p : ValueFault → Problem) : Except ValueFault β → Read π β
  | .ok b => .ok b
  | .error f =>
    match f.family with
    | .key | .type | .value => problem place (p f)
    | _ => escape f

/-- A date in any spelling; null is none. -/
def date (place : π) : Value → Read π (Option Date)
  | .null => .ok none
  | .date d | .day d | .moment d _ => .ok (some d)
  | .text s =>
    match Date.parse s with
    | .ok d => .ok (some d)
    | .error f => problem place (.dateText f)
  | .mapping entries =>
    (judged place (fun _ => .dateParts) (Date.ofValue (.mapping entries))).map some
  | _ => problem place .dateShape

def amount (place : π) : Value → Read π Float
  | .int i =>
    match Value.ofWhole i with
    | .ok x => .ok x
    | .error f => escape f
  | .float x => .ok x
  | _ => problem place .number

/-- A list; null is the empty one. -/
def list (place : π) : Value → Read π (List Value)
  | .null => .ok []
  | .list items => .ok items
  | _ => problem place .list

def mapping (place : π) : Value → Read π (List (String × Value))
  | .mapping entries => .ok entries
  | _ => problem place .mapping

end Parts

def fieldOf (entries : List (String × Value)) (k : String) : Value :=
  (Value.lookup k entries).getD .null

/-! ## Conditions -/

/-- Whether a value spells a date that stands for its parts. -/
def spellsDate : Value → Bool
  | .text _ | .day _ | .moment _ _ => true
  | _ => false

/-- A spelled date as its parts. -/
def dateValue (place : EventPlace) (v : Value) : Read EventPlace Value := do
  return ((← date place v).map Date.toValue).getD .null

/-- The payload with the dates under `key` as parts. -/
def withDateParts (j : Nat) (key : String) (entries : List (String × Value)) :
    Read EventPlace (List (String × Value)) :=
  match Value.lookup key entries with
  | some v =>
    if spellsDate v then do
      return Value.assign key (← dateValue (.payload j (some key)) v) entries
    else .ok entries
  | none => .ok entries

/-- A condition mapping with all its dates as parts. -/
def withParts (j : Nat) (entries : List (String × Value)) :
    Read EventPlace (List (String × Value)) :=
  match Value.lookup "value" entries with
  | some (.mapping payload) => do
    let payload ← withDateParts j "start" payload
    let payload ← withDateParts j "end" payload
    return Value.assign "value" (.mapping payload) entries
  | some v =>
    if spellsDate v then do return Value.assign "value" (← dateValue (.payload j none) v) entries
    else .ok entries
  | none => .ok entries

def condition (j : Nat) (v : Value) : Read EventPlace (Condition Float) := do
  let entries ← withParts j (← mapping (.condition j) v)
  match Condition.ofValue (.mapping entries) with
  | .ok c => return c
  | .error (.config f) => problem (.condition j) (.config f)
  | .error (.value f) => judged (.condition j) .payload (.error f)

/-- The conditions from the position `j` on. -/
def conditionsFrom (j : Nat) : List Value → Read EventPlace (List (Condition Float))
  | [] => .ok []
  | v :: r => do return (← condition j v) :: (← conditionsFrom (j + 1) r)

def conditions (v : Value) : Read EventPlace (List (Condition Float)) := do
  conditionsFrom 0 (← list (.field "unlockedBy") v)

/-! ## Events -/

/-- Annotations as texts. -/
def metadata (v : Value) : Read EventPlace (Option Value) :=
  match v with
  | .null => .ok none
  | v => do
    let entries ← mapping (.field "metadata") v
    if entries.any fun e => e.2.isUnwritten then escape .longNumber
    else return some (.mapping (entries.map fun e => (e.1, .text e.2.shown)))

/-- One of the words `options`. -/
def word (place : EventPlace) (options : List String) (v : Value) : Read EventPlace String :=
  match v with
  | .text s => if options.contains s then .ok s else problem place (.choice options v.quoted)
  | v => problemShowing place v (.choice options v.quoted)

/-- What all kinds of events have in common. -/
structure EventHead where
  name : String
  type : String
  amount : Float
  conditions : List (Condition Float)
  metadata : Option Value

def eventName (v : Value) : Read EventPlace String :=
  match v with
  | .text s => if Text.isBlankText s then problem .entry (.required "name" "") else .ok s
  | _ => problem .entry (.required "name" "")

def eventHead (entries : List (String × Value)) : Read EventPlace EventHead := do
  let name ← eventName (fieldOf entries "name")
  let type ← word (.field "type") eventTypes (fieldOf entries "type")
  let amount ← amount (.field "amount") (fieldOf entries "amount")
  let conditions ← conditions (fieldOf entries "unlockedBy")
  let metadata ← metadata (fieldOf entries "metadata")
  return { name, type, amount, conditions, metadata }

/-- The recurrence of a full event, a word or a mapping with a type. -/
def recurrenceField (entries : List (String × Value)) : Value :=
  match (Value.lookup "recurrence" entries).getD (.text Recurrence.once.name) with
  | .mapping inner => fieldOf inner "type"
  | v => v

def fullEvent (h : EventHead) (entries : List (String × Value)) : Read EventPlace (Event Float) := do
  let recurrence ←
    word (.field "recurrence") (Recurrence.all.map Recurrence.name) (recurrenceField entries)
  return ⟨h.name, h.type, h.amount, recurrence, h.conditions, h.metadata⟩

def oneOffEvent (h : EventHead) (entries : List (String × Value)) :
    Read EventPlace (Event Float) := do
  match ← date (.field "date") (fieldOf entries "date") with
  | some d => return .oneOff h.type h.name h.amount d h.conditions h.metadata
  | none => problem .entry (.required "date" " for one-off events")

def recurringEvent (h : EventHead) (entries : List (String × Value)) :
    Read EventPlace (Event Float) := do
  match ← date (.field "start") (fieldOf entries "start") with
  | none => problem .entry (.required "start" " for recurring events")
  | some first =>
    let last ← date (.field "end") (fieldOf entries "end")
    let frequency := (Value.lookup "frequency" entries).getD (.text Recurrence.monthly.name)
    match Event.recurring h.type h.name h.amount first last frequency h.conditions h.metadata with
    | .ok e => return e
    | .error f => problemShowing (.field "frequency") frequency (.config f)

def gatedEvent (h : EventHead) : Read EventPlace (Event Float) :=
  if h.conditions.isEmpty then problem .entry (.required "unlockedBy" " for kind 'event'")
  else .ok (.gated h.type h.name h.amount h.conditions h.metadata)

def kinds : List String := ["event", "one-off", "recurring"]

def ofKind (h : EventHead) (entries : List (String × Value)) (kind : Value) :
    Read EventPlace (Event Float) :=
  match kind.hashed with
  | .error f => escape f
  | .ok kind => do
    match ← word (.field "kind") kinds kind with
    | "one-off" => oneOffEvent h entries
    | "recurring" => recurringEvent h entries
    | _ => gatedEvent h

def event (v : Value) : Read EventPlace (Event Float) := do
  let entries ← mapping .entry v
  let head ← eventHead entries
  match fieldOf entries "kind" with
  | .null => fullEvent head entries
  | kind => ofKind head entries kind

/-- The events from the position `i` on, the first bad one deciding. -/
def eventsFrom (i : Nat) : List Value → Read Place (List (Event Float))
  | [] => .ok []
  | v :: r => do
    let e ← (event v).mapError (Misread.map (Place.event i))
    return e :: (← eventsFrom (i + 1) r)

/-! ## Documents -/

def documentName (entries : List (String × Value)) : Read Place String :=
  match (Value.lookup "name" entries).getD (.text Scenario.unnamed) with
  | .text s => if Text.isBlankText s then problem (.field "name") .nonEmptyText else .ok s
  | _ => problem (.field "name") .nonEmptyText

def runDefaults (entries : List (String × Value)) : Read Place RunDefaults := do
  let first ← date (.field "start") (fieldOf entries "start")
  let last ← date (.field "end") (fieldOf entries "end")
  let opening ← amount (.field "initial_balance")
    ((Value.lookup "initial_balance" entries).getD (.float 0))
  return { first, last, opening }

def parts (entries : List (String × Value)) : Read Place (Scenario Float × RunDefaults) := do
  let name ← documentName entries
  let defaults ← runDefaults entries
  let events ← eventsFrom 0 (← list (.field "events") (fieldOf entries "events"))
  return (⟨name, events⟩, defaults)

def failureOf (source : String) : Misread Place → LoadFailure
  | .problem place p => .load (.problem source place p)
  | .escaped f => .escaped f

def ofEntries (source : String) (entries : List (String × Value)) :
    Except LoadFailure Document :=
  match parts entries with
  | .ok (scenario, defaults) => .ok { scenario, defaults, source }
  | .error m => .error (failureOf source m)

/-- The position of the first event that is deeper than `limit`. Only mappings are taken for events. -/
def deepEvent? (limit : Nat) (events : List Value) : Option Nat :=
  events.findIdx? fun
    | .mapping entries => decide (limit < (Value.mapping entries).depth)
    | _ => false

/-- A document whose events may be `limit` deep; the first that is deeper is met in its turn. -/
def ofEntriesWithin (limit : Nat) (source : String) (entries : List (String × Value)) :
    Except LoadFailure Document :=
  match fieldOf entries "events" with
  | .list events =>
    match deepEvent? limit events with
    | none => ofEntries source entries
    | some i =>
      match ofEntries source (Value.assign "events" (.list (events.take i)) entries) with
      | .error f => .error f
      | .ok _ => .error .nested
  | _ => ofEntries source entries

/-- The source of a document that comes from memory. -/
def mappingSource : String := "<mapping>"

/-- A document in memory. -/
def ofMapping (entries : List (String × Value)) : Except LoadFailure Document :=
  ofEntries mappingSource entries

/-- A document in memory that may be `limit` deep: it is copied before it is read. -/
def ofMappingWithin (limit : Nat) (entries : List (String × Value)) : Except LoadFailure Document :=
  if limit < (Value.mapping entries).depth then .error .nested else ofMapping entries

/-! ## Writing -/

/-- A date as an entry in figures, none for no date. -/
def dateField (key : String) : Option Date → Except ValueFault (List (String × Value))
  | none => .ok []
  | some d => do return [(key, .text (← (Value.date d).written))]

def defaultsFields (d : RunDefaults) : Except ValueFault (List (String × Value)) := do
  let first ← dateField "start" d.first
  let last ← dateField "end" d.last
  return ("initial_balance", .float d.opening) :: (first ++ last)

/-- The entries of a mapping that loads as the scenario, with or without defaults. -/
def toEntries (s : Scenario Float) (d : Option RunDefaults) :
    Except ValueFault (List (String × Value)) := do
  let defaults ← (d.map defaultsFields).getD (.ok [])
  let events ← s.events.mapM Event.toValue
  return ("name", .text s.name) :: (defaults ++ [("events", .list events)])

end Document

end Cashflow

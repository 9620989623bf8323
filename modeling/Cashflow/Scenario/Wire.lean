import Cashflow.Scenario.Event
import Cashflow.Document.Access

/-!
# Scenarios as document values

`toValue` writes conditions, events and scenarios as mappings; `ofValue` reads them back without
judging them: an event type or recurrence may be any word, names are whatever text the value makes
(if it makes one), and a number may be spelled. What is wrong is reported as it is met, fields being taken in a fixed
order.
-/

namespace Cashflow

/-- A fault of a value among all faults. -/
def ofValueFault {β : Type} (r : Except ValueFault β) : Except Fault β := r.mapError .value

/-! ## Conditions -/

namespace Condition

def valueOf : Condition Float → Value
  | .dateIs d => d.toValue
  | .dateInRange first last => .mapping [("start", first.toValue), ("end", (last.map Date.toValue).getD .null)]
  | .networthIsAbove e x => .mapping [("eventRef", .text e), ("amount", .float x)]
  | .eventHappened e => .mapping [("eventName", .text e)]
  | .incomeIsAbove e x => .mapping [("eventName", .text e), ("amount", .float x)]

def toValue (c : Condition Float) : Value :=
  .mapping [("tag", .text c.kind.tag.name), ("type", .text c.kind.name), ("value", c.valueOf)]

/-- The end of a range, open when it is null. -/
def lastOfValue : Value → Except ValueFault (Option Date)
  | .null => .ok none
  | v => (Date.ofValue v).map some

/-- The payload of a condition of the kind `k`. -/
def ofPayload (k : ConditionKind) (v : Value) : Except ValueFault (Condition Float) :=
  match k with
  | .dateIs => do return .dateIs (← Date.ofValue v)
  | .dateInRange => do
    let last ← v.fieldOrNull "end"
    let first ← Date.ofValue (← v.item "start")
    return .dateInRange first (← lastOfValue last)
  | .networthIsAbove => do
    let event ← ((← v.field? "eventRef").getD (.text "")).written
    return .networthIsAbove event (← (← v.item "amount").number)
  | .eventHappened => do return .eventHappened (← (← v.item "eventName").written)
  | .incomeIsAbove => do
    let event ← (← v.item "eventName").written
    return .incomeIsAbove event (← (← v.item "amount").number)

/-- The kind that a look-up value names. -/
def kindOf? (v : Value) : Option ConditionKind := v.text?.bind ConditionKind.ofName?

/-- A payload that is empty or zero counts as the empty mapping. -/
def payload (v : Value) : Value := if v.isTruthy then v else .mapping []

def ofValue (v : Value) : Except Fault (Condition Float) := do
  let type ← ofValueFault (v.fieldOrNull "type")
  let key ← ofValueFault type.hashed
  match kindOf? key with
  | none => throw (.config (.conditionType (← ofValueFault type.written)))
  | some k =>
    let tag := (← ofValueFault (v.field? "tag")).getD (.text k.tag.name)
    if tag.text? = some k.tag.name then
      ofValueFault (do ofPayload k (payload (← v.fieldOrNull "value")))
    else throw (.config (.conditionTag k.name k.tag.name (← ofValueFault tag.written)))

end Condition

/-! ## Events and scenarios -/

/-- The pairs in a list; texts and mappings give the pairs of their parts. -/
def pairsOf (position : Nat) : List Value → Except ValueFault (List (Value × Value))
  | [] => .ok []
  | v :: r =>
    match v.elements with
    | .ok [k, x] => do
      let key ← k.hashed
      return (key, x) :: (← pairsOf (position + 1) r)
    | .ok parts => .error (.pairLength position parts.length)
    | .error _ => .error (.notPair position)

/-- The pairs with a new value for a key that is there, or with one pair more. -/
def assignKey (k v : Value) : List (Value × Value) → List (Value × Value)
  | [] => [(k, v)]
  | (k', v') :: r => if k'.isSameKey k then (k', v) :: r else (k', v') :: assignKey k v r

/-- Annotations as a mapping. Of pairs with one key the first gives the key and the last the value;
then keys become texts, and of those with one text again the last gives the value. -/
def annotations (v : Value) : Except ValueFault Value :=
  match v with
  | .mapping entries => .ok (.mapping entries)
  | v => do
    let pairs := (← pairsOf 0 (← v.elements)).foldl (fun ps p => assignKey p.1 p.2 ps) []
    return .mapping (pairs.foldl (fun entries p => Value.assign p.1.shown p.2 entries) [])

namespace Event

def fields (e : Event Float) : List (String × Value) :=
  [("name", .text e.name), ("type", .text e.type), ("amount", .float e.amount),
    ("recurrence", .mapping [("type", .text e.recurrence)]),
    ("unlockedBy", .list (e.conditions.map Condition.toValue))]

/-- Annotations are written when there are any. -/
def metadataFields (m : Option Value) : Except ValueFault (List (String × Value)) :=
  match m with
  | none => .ok []
  | some v => if v.isTruthy then do return [("metadata", ← annotations v)] else .ok []

def toValue (e : Event Float) : Except ValueFault Value := do
  return .mapping (e.fields ++ (← metadataFields e.metadata))

/-- The recurrence, given as a word or as a mapping with a type. -/
def recurrenceOf (v : Value) : Value :=
  match v with
  | .mapping entries => (Value.lookup "type" entries).getD (.text Recurrence.once.name)
  | v => v

/-- A null counts as absent. -/
def presentValue (v : Option Value) : Option Value :=
  match v with
  | some .null => none
  | v => v

def ofValue (v : Value) : Except Fault (Event Float) := do
  let recurrence ← ofValueFault (v.field? "recurrence")
  let recurrence := recurrenceOf (recurrence.getD (.text Recurrence.once.name))
  let name ← ofValueFault (do (← v.item "name").written)
  let type ← ofValueFault (do (← v.item "type").written)
  let amount ← ofValueFault (do (← v.item "amount").number)
  let recurrence ← ofValueFault recurrence.written
  let items ← ofValueFault (do ((← v.field? "unlockedBy").getD (.list [])).elements)
  let conditions ← items.mapM Condition.ofValue
  let metadata ← ofValueFault (v.field? "metadata")
  return ⟨name, type, amount, recurrence, conditions, presentValue metadata⟩

end Event

namespace Scenario

def unnamed : String := "Unnamed Scenario"

def toValue (s : Scenario Float) : Except ValueFault Value := do
  let events ← s.events.mapM Event.toValue
  return .mapping [("name", .text s.name), ("events", .list events)]

def ofValue (v : Value) : Except Fault (Scenario Float) := do
  let name ← ofValueFault (do ((← v.field? "name").getD (.text unnamed)).written)
  let events ← ofValueFault (v.fieldOrNull "events")
  let items ← ofValueFault (if events.isTruthy then events.elements else .ok [])
  return ⟨name, ← items.mapM Event.ofValue⟩

end Scenario

end Cashflow

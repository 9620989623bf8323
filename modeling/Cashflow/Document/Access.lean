import Cashflow.Document.Fault
import Cashflow.Decimal.Reader
import Cashflow.Decimal.Rounding

/-!
# Taking values apart

Each function asks a value for something and says what is wrong when it cannot give it:

* `item` : the value of a key that must be there; `field?` : of a key that may be absent;
* `elements` : the items of a list, the characters of a text, the keys of a mapping;
* `hashed` : a value as a look-up key, which lists and mappings cannot be;
* `isSameKey` : whether two values are one look-up key, numbers by size whatever their type;
* `whole`, `number` : the number that a value is or spells;
* `written` : the text of a value, unless a whole number in it is too long;
* `Date.ofValue` : a date from its parts `y`, `m` and perhaps `d`.
-/

namespace Cashflow

namespace Value

def item (k : String) : Value → Except ValueFault Value
  | .mapping entries =>
    match lookup k entries with
    | some v => .ok v
    | none => .error (.missingKey k)
  | .list _ => .error .listKey
  | .text _ => .error .textKey
  | v => .error (.notSubscriptable v.typeName)

def field? (k : String) : Value → Except ValueFault (Option Value)
  | .mapping entries => .ok (lookup k entries)
  | v => .error (.noLookup v.typeName)

/-- A field that counts as absent when it is null. -/
def fieldOrNull (k : String) (v : Value) : Except ValueFault Value :=
  (v.field? k).map (·.getD .null)

def elements : Value → Except ValueFault (List Value)
  | .list items => .ok items
  | .text s => .ok ((Text.codes s).map fun code => .text (String.ofList (Text.charsOf code)))
  | .mapping entries => .ok (entries.map fun e => .text e.1)
  | v => .error (.notIterable v.typeName)

def hashed : Value → Except ValueFault Value
  | .list items => .error (.unhashable (Value.list items).typeName)
  | .mapping entries => .error (.unhashable (Value.mapping entries).typeName)
  | v => .ok v

/-- The whole number that a value is, as a truth value, a whole number or a double. -/
def exactWhole? : Value → Option Int
  | .bool b => some (if b then 1 else 0)
  | .int i => some i
  | .float x => (Decimal.truncate? x).filter fun i => (Decimal.ofInt? i).any (x == ·)
  | _ => none

def isSameKey (a b : Value) : Bool :=
  match a.exactWhole?, b.exactWhole? with
  | some i, some j => i = j
  | none, none =>
    match a, b with
    | .null, .null => true
    | .float x, .float y => x == y
    | .text s, .text t => s = t
    | .day d, .day e => d = e
    | .moment d c, .moment e k => d = e && c = k
    | .date d, .date e => d = e
    | _, _ => false
  | _, _ => false

/-- The text that a value is. -/
def text? : Value → Option String
  | .text s => some s
  | _ => none

def whole : Value → Except ValueFault Int
  | .int i => .ok i
  | .bool b => .ok (if b then 1 else 0)
  | .float x =>
    match Decimal.read x with
    | .undefined => .error .undefinedWhole
    | .infinite _ => .error .infiniteWhole
    | .finite _ _ _ => .ok ((Decimal.truncate? x).getD 0)
  | .text s => (Text.readInteger s.toList).mapError (.ofNumeral s.toList)
  | v => .error (.notWhole v.typeName)

/-- A whole number as a double. -/
def ofWhole (i : Int) : Except ValueFault Float :=
  match Decimal.ofInt? i with
  | some x => .ok x
  | none => .error .wholeTooLarge

def number : Value → Except ValueFault Float
  | .float x => .ok x
  | .int i => ofWhole i
  | .bool b => .ok (if b then 1 else 0)
  | .text s =>
    match Decimal.number? s.toList with
    | some x => .ok x
    | none => .error (.numberText s)
  | v => .error (.notNumber v.typeName)

def written (v : Value) : Except ValueFault String :=
  if v.isUnwritten then .error .longNumber else .ok v.shown

end Value

namespace Date

/-- Year, month and day as whole numbers; the day may be left out. -/
def ofValue (v : Value) : Except ValueFault Date := do
  let year ← (← v.item "y").whole
  let month ← (← v.item "m").whole
  let day ← ((← v.field? "d").getD (.int 1)).whole
  return ⟨year, month, day⟩

def toValue (d : Date) : Value :=
  .mapping [("y", .int d.year), ("m", .int d.month), ("d", .int d.day)]

theorem ofValue_toValue (d : Date) : ofValue d.toValue = .ok d := rfl

end Date

end Cashflow

import Cashflow.Document.Value

/-!
# What can be wrong with a document value

`ValueFault` lists the ways in which a value does not serve where it stands: a key that is missing,
a type without keys or items, a number or date that does not read. `ConfigFault` lists the kinds
that the simulator has no behaviour for. `Fault.message` is the wording of all of them and
`Fault.family` the coarse classes by which a caller tells them apart.
-/

namespace Cashflow

inductive ValueFault where
  /-- A mapping without the key. -/
  | missingKey (key : String)
  /-- A value of a type that has no keys at all. -/
  | notSubscriptable (type : String)
  /-- A key on a list. -/
  | listKey
  /-- A key on a text. -/
  | textKey
  /-- A look-up with a default on a type without look-up. -/
  | noLookup (type : String)
  | notIterable (type : String)
  | unhashable (type : String)
  /-- A type that no whole number is read from. -/
  | notWhole (type : String)
  /-- A type that no number is read from. -/
  | notNumber (type : String)
  | wholeText (text : String)
  /-- A whole number of more digits than are read. -/
  | longNumeral (digits : Nat)
  /-- A whole number of more digits than are written. -/
  | longNumber
  | numberText (text : String)
  | undefinedWhole
  | infiniteWhole
  | wholeTooLarge
  | roundedTooLarge
  | dateText (fault : DateFault)
  | notDate (shown : String)
  /-- A list element that is no pair, where pairs are needed. -/
  | notPair (position : Nat)
  /-- A list element of a length other than two, where pairs are needed. -/
  | pairLength (position length : Nat)
deriving DecidableEq

inductive ConfigFault where
  | conditionType (shown : String)
  | conditionTag (kind expected shown : String)
  | eventType (type event : String)
  | recurrence (kind : String) (event : Option String)
  | condition (kind : String) (event : Option String)
  | frequency (shown : String)
deriving DecidableEq

inductive Fault where
  | value (fault : ValueFault)
  | config (fault : ConfigFault)
deriving DecidableEq

/-- The classes of faults. -/
inductive Fault.Family where
  | key
  | type
  | lookup
  | value
  | overflow
  | config
deriving DecidableEq

/-! ## Wording -/

/-- At most the first `n` characters. -/
def clipped (n : Nat) (s : String) : String := String.ofList (s.toList.take n)

def natText (n : Nat) : String := String.ofList (Text.digits n)

/-- The limit of digits, with what is known of the number beyond it. -/
def limitText (known : String) : String :=
  s!"Exceeds the limit ({natText Text.digitLimit} digits) for integer string conversion{known}; use sys.set_int_max_str_digits() to increase the limit"

def longNumeralText (digits : Nat) : String := limitText s!": value has {natText digits} digits"

def ValueFault.message : ValueFault → String
  | .missingKey k => Text.quoted k
  | .notSubscriptable t => s!"'{t}' object is not subscriptable"
  | .listKey => "list indices must be integers or slices, not str"
  | .textKey => "string indices must be integers, not 'str'"
  | .noLookup t => s!"'{t}' object has no attribute 'get'"
  | .notIterable t => s!"'{t}' object is not iterable"
  | .unhashable t => s!"unhashable type: '{t}'"
  | .notWhole t =>
    s!"int() argument must be a string, a bytes-like object or a real number, not '{t}'"
  | .notNumber t => s!"float() argument must be a string or a real number, not '{t}'"
  | .wholeText s => "invalid literal for int() with base 10: " ++ clipped 200 (Text.quoted s)
  | .longNumeral n => longNumeralText n
  | .longNumber => limitText ""
  | .numberText s => "could not convert string to float: " ++ Text.quoted s
  | .undefinedWhole => "cannot convert float NaN to integer"
  | .infiniteWhole => "cannot convert float infinity to integer"
  | .wholeTooLarge => "int too large to convert to float"
  | .roundedTooLarge => "rounded value too large to represent"
  | .dateText f => f.message
  | .notDate shown => s!"Expected LocalDate, date or 'YYYY-MM[-DD]' string, got {shown}"
  | .notPair i => s!"cannot convert dictionary update sequence element #{natText i} to a sequence"
  | .pairLength i n =>
    s!"dictionary update sequence element #{natText i} has length {natText n}; 2 is required"

def onEvent : Option String → String
  | none => ""
  | some name => s!" (event '{name}')"

/-- Why the text `s` is no whole number. -/
def ValueFault.ofNumeral (s : List Char) : Text.NumeralFault → ValueFault
  | .malformed => .wholeText (String.ofList s)
  | .tooLong n => .longNumeral n

def ConfigFault.message : ConfigFault → String
  | .conditionType shown => s!"Unknown condition type: {shown}"
  | .conditionTag kind expected shown =>
    s!"Condition '{kind}' must be tagged '{expected}', got '{shown}'"
  | .eventType type event => s!"Unknown event type '{type}' on '{event}'"
  | .recurrence kind event => s!"Unknown recurrence strategy: {kind}" ++ onEvent event
  | .condition kind event => s!"Unknown condition strategy: {kind}" ++ onEvent event
  | .frequency shown => s!"Recurring events must be 'monthly' or 'yearly', got '{shown}'"

def Fault.message : Fault → String
  | .value f => f.message
  | .config f => f.message

/-! ## Classes -/

def ValueFault.family : ValueFault → Fault.Family
  | .missingKey _ => .key
  | .notSubscriptable _ | .listKey | .textKey | .notIterable _ | .unhashable _ | .notWhole _
  | .notNumber _ | .notDate _ | .notPair _ => .type
  | .noLookup _ => .lookup
  | .wholeText _ | .longNumeral _ | .longNumber | .numberText _ | .undefinedWhole | .dateText _
  | .pairLength _ _ => .value
  | .infiniteWhole | .wholeTooLarge | .roundedTooLarge => .overflow

def Fault.family : Fault → Fault.Family
  | .value f => f.family
  | .config _ => .config

end Cashflow

import Cashflow.Document.Fault

/-!
# What the loader reports

A `Problem` is judged at a place of a document; the wording is the source, the place and the problem.
A fault that the loader does not judge escapes as it is (`Misread.escaped`).
-/

namespace Cashflow

/-- A place inside one entry of the event list. -/
inductive EventPlace where
  | entry
  | field (name : String)
  | condition (position : Nat)
  | payload (position : Nat) (key : Option String)
deriving DecidableEq

inductive Place where
  | field (name : String)
  | event (position : Nat) (place : EventPlace)
deriving DecidableEq

inductive Problem where
  | nonEmptyText
  | number
  | list
  | mapping
  /-- A field that is required, for the kind of event that requires it. -/
  | required (field : String) (forKind : String)
  | choice (options : List String) (shown : String)
  | dateText (fault : DateFault)
  | dateParts
  | dateShape
  | config (fault : ConfigFault)
  | payload (fault : ValueFault)
deriving DecidableEq

inductive LoadFault where
  | problem (source : String) (place : Place) (problem : Problem)
  | unsupported (format path : String)
  | unreadable (path format : String)
  | notMapping (path : String)
deriving DecidableEq

/-- What reading a part of a document can end with. -/
inductive Misread (π : Type) where
  | problem (place : π) (problem : Problem)
  | escaped (fault : Fault)
deriving DecidableEq

namespace Misread

def map {π ρ : Type} (f : π → ρ) : Misread π → Misread ρ
  | .problem place p => .problem (f place) p
  | .escaped fault => .escaped fault

end Misread

/-- What loading a document can end with. -/
inductive LoadFailure where
  | load (fault : LoadFault)
  | escaped (fault : Fault)
  | noFile (path : String)
  | directory (path : String)
  | nameTooLong (path : String)
  /-- A whole number of more digits than are read. -/
  | longNumeral (digits : Nat)
  /-- Lists and mappings inside one another beyond the depth that is read. -/
  | nested
deriving DecidableEq

/-! ## Wording -/

def EventPlace.text : EventPlace → String
  | .entry => ""
  | .field name => "." ++ name
  | .condition j => s!".unlockedBy[{natText j}]"
  | .payload j none => s!".unlockedBy[{natText j}].value"
  | .payload j (some key) => s!".unlockedBy[{natText j}].value.{key}"

def Place.text : Place → String
  | .field name => name
  | .event i place => s!"events[{natText i}]" ++ place.text

def optionList (options : List String) : String :=
  "[" ++ String.intercalate ", " (options.map Text.quoted) ++ "]"

def Problem.message : Problem → String
  | .nonEmptyText => "expected non-empty string"
  | .number => "expected a number"
  | .list => "expected a list"
  | .mapping => "expected a mapping"
  | .required field forKind => s!"'{field}' is required" ++ forKind
  | .choice options shown => s!"expected one of {optionList options}, got {shown}"
  | .dateText f => f.message
  | .dateParts => "expected \x7by, m, d\x7d mapping"
  | .dateShape => "expected ISO date string or \x7by, m, d\x7d mapping"
  | .config f => f.message
  | .payload f => s!"malformed condition value ({f.message})"

def LoadFault.message : LoadFault → String
  | .problem source place p => s!"{source}::{place.text}: {p.message}"
  | .unsupported format path => s!"Unsupported scenario format '{format}' for {path}"
  | .unreadable path format => s!"{path}: could not parse {format}"
  | .notMapping path => s!"Scenario root must be a mapping (source={path})"

end Cashflow

import Cashflow.Keyed
import Cashflow.Calendar.Key
import Cashflow.Document.Fault

/-!
# Firing histories

A history keeps, for every name that has fired, the keys of its first and last month and the number
of its firings, in order of first firing. The year of the last firing is read back from the key, so
it is there for the keys of all months but those of years below zero (`lastYear?`). Reported to the
outside it is subject to the limit of numerals (`lastYear`).
-/

namespace Cashflow

structure Firings where
  first : String
  last : String
  count : Nat := 1
deriving DecidableEq

abbrev History := Keyed String Firings

namespace Firings

def record (f : Firings) (key : String) : Firings := { f with last := key, count := f.count + 1 }

def lastYear? (f : Firings) : Option Int := keyYear? f.last

/-- The fault of a history whose last key has no year. -/
def noYear (f : Firings) : ValueFault := .wholeText (String.ofList (keyHead f.last))

def lastYear (f : Firings) : Except ValueFault Int :=
  (keyYear f.last).mapError (.ofNumeral (keyHead f.last))

end Firings

namespace History

/-- One more firing of `name` in the month `key`. -/
def record (h : History) (name key : String) : History :=
  match h.get? name with
  | none => h.put name ⟨key, key, 1⟩
  | some f => h.put name (f.record key)

theorem get?_record (h : History) (name key a : String) :
    (h.record name key).get? a =
      if name = a then some (match h.get? name with
        | none => ⟨key, key, 1⟩
        | some f => f.record key)
      else h.get? a := by
  unfold record
  cases h.get? name <;> simp [Keyed.get?_put]

theorem keys_record (h : History) (name key : String) :
    (h.record name key).keys = if name ∈ h.keys then h.keys else h.keys ++ [name] := by
  unfold record
  cases h.get? name <;> simp [Keyed.keys_put]

end History

end Cashflow

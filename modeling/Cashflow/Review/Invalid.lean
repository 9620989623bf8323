import Cashflow.Document.Fault

/-!
# Rejections

A scenario or a run is rejected with a text and the names that it concerns; the wording shows at
most ten of them.
-/

namespace Cashflow

structure Rejection where
  scenario : String
  text : String
  problems : List String := []

namespace Rejection

def shownProblems : Nat := 10

def suffix (problems : List String) : String :=
  if problems.isEmpty then ""
  else
    " | problems: [" ++ String.intercalate ", " (problems.take shownProblems) ++ "]" ++
      if shownProblems < problems.length then
        s!" (+{natText (problems.length - shownProblems)} more)"
      else ""

def message (r : Rejection) : String := s!"[Scenario {r.scenario}] {r.text}{suffix r.problems}"

end Rejection

end Cashflow

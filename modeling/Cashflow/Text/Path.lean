/-!
# File paths

A path is written without empty parts, without parts that stand for the place itself and without a
final slash; two slashes in front are kept, more are one. Its suffix is what follows the last point
of its last part, unless that point stands first or last.
-/

namespace Cashflow.Text

def splitSlash : List Char → List (List Char)
  | [] => [[]]
  | c :: r =>
    if c = '/' then [] :: splitSlash r
    else match splitSlash r with
      | [] => [[c]]
      | p :: ps => (c :: p) :: ps

/-- The parts of a path that name something. -/
def pathParts (s : List Char) : List (List Char) :=
  (splitSlash s).filter fun p => p ≠ [] ∧ p ≠ ['.']

/-- The slashes that a path starts with. -/
def pathRoot (s : List Char) : List Char :=
  match s.takeWhile (· = '/') with
  | ['/', '/'] => ['/', '/']
  | [] => []
  | _ => ['/']

def normalPath (s : String) : String :=
  let body := pathRoot s.toList ++ List.intercalate ['/'] (pathParts s.toList)
  if body = [] then "." else String.ofList body

/-- What follows the last point of a name, without the point. -/
def suffixOf (name : List Char) : List Char :=
  let tail := (name.reverse.takeWhile (· ≠ '.')).reverse
  if tail.length + 1 < name.length ∧ tail ≠ [] then tail else []

def pathSuffix (s : String) : String :=
  String.ofList (suffixOf ((pathParts s.toList).getLast?.getD []))

end Cashflow.Text

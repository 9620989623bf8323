import Cashflow.Text.Blank
import Cashflow.Text.DecimalDigit

/-!
# Words, numbers and marks

`tokens` cuts a text into words of letters, numbers and single marks; a blank of any sort is the mark
`' '`. A point may stand inside a word or a number and a comma inside a number of two or more digits,
where a comma alone is read as a point. Points and commas are marks of their own where they end a
token, where one has several points, and where a word goes on behind a point.

* `Token.isDigits` : a token of nothing but digits;
* `marks` : the pieces that a token is cut into at its points and commas.
-/

namespace Cashflow.Text

abbrev Token := List Char

/-- A letter of any script: what is no plain mark, no digit and no blank. -/
def isLetter (c : Char) : Bool :=
  c.isAlpha || (decide (0x80 ≤ c.toNat) && (digitValue? c).isNone && !isBlank c)

def isDigit (c : Char) : Bool := (digitValue? c).isSome

def Token.isDigits (t : Token) : Bool := !t.isEmpty && t.all isDigit

/-- A point or a comma. -/
def isPoint (c : Char) : Bool := c = '.' || c = ','

/-- The pieces of a token between points and commas, and these themselves. -/
def marks : Token → List Token
  | [] => []
  | c :: r =>
    if isPoint c then [c] :: marks r
    else match marks r with
      | [] => [[c]]
      | p :: ps => if p.any isPoint then [c] :: p :: ps else (c :: p) :: ps

/-! ## Open tokens -/

/-- What a token consists of so far. -/
inductive Stretch where
  | word
  | number
  /-- A word with a point in it. -/
  | pointedWord
  /-- A number with a point or a comma in it. -/
  | pointedNumber
deriving DecidableEq

/-- A token that may go on, its last character first. -/
structure OpenToken where
  chars : Token
  stretch : Stretch
  /-- Whether something came behind its letters. -/
  lettered : Bool := false

namespace OpenToken

def ofChar? (c : Char) : Option OpenToken :=
  if isLetter c then some { chars := [c], stretch := .word }
  else if isDigit c then some { chars := [c], stretch := .number }
  else none

/-- The token with a character behind it. -/
def noted (t : OpenToken) : OpenToken :=
  match t.stretch with
  | .word | .pointedWord => { t with lettered := true }
  | .number | .pointedNumber => t

/-- What becomes of a token when a character goes on with it. -/
def stretch? (t : OpenToken) (c : Char) : Option Stretch :=
  let behindPoint := t.chars.head? = some '.'
  match t.stretch with
  | .word => if isLetter c then some .word else if c = '.' then some .pointedWord else none
  | .number =>
    if isDigit c then some .number
    else if c = '.' ∨ (c = ',' ∧ 2 ≤ t.chars.length) then some .pointedNumber
    else none
  | .pointedWord =>
    if c = '.' ∨ isLetter c then some .pointedWord
    else if isDigit c ∧ behindPoint then some .pointedNumber
    else none
  | .pointedNumber =>
    if c = '.' ∨ isDigit c then some .pointedNumber
    else if isLetter c ∧ behindPoint then some .pointedWord
    else none

def extend? (t : OpenToken) (c : Char) : Option OpenToken :=
  (t.noted.stretch? c).map fun s => { t.noted with chars := c :: t.chars, stretch := s }

/-- The tokens that a finished one stands for. -/
def finished (t : OpenToken) : List Token :=
  let chars := t.chars.reverse
  let points := chars.countP (· = '.')
  match t.stretch with
  | .word | .number => [chars]
  | .pointedWord =>
    if t.lettered ∨ 1 < points ∨ t.chars.head?.any isPoint then marks chars else [chars]
  | .pointedNumber =>
    if t.lettered ∨ 1 < points ∨ t.chars.head?.any isPoint then marks chars
    else [if points = 0 then chars.map fun c => if c = ',' then '.' else c else chars]

end OpenToken

/-- The mark that a character is. -/
def markOf (c : Char) : Token := if isBlank c then [' '] else [c]

/-- The tokens of a text behind an open token. -/
def tokensAfter : Option OpenToken → List Char → List Token
  | none, [] => []
  | some t, [] => t.finished
  | none, c :: r =>
    match OpenToken.ofChar? c with
    | some t => tokensAfter (some t) r
    | none => markOf c :: tokensAfter none r
  | some t, c :: r =>
    match t.extend? c with
    | some t => tokensAfter (some t) r
    | none => t.noted.finished ++
      match OpenToken.ofChar? c with
      | some t => tokensAfter (some t) r
      | none => markOf c :: tokensAfter none r

def tokens (s : List Char) : List Token := tokensAfter none s

end Cashflow.Text

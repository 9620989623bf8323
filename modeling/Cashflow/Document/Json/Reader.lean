import Cashflow.Document.Value
import Cashflow.Decimal.Reader
import Cashflow.Text.Surrogate

/-!
# Reading JSON text

`Json.read` reads one value with blanks around it and nothing behind it. A number with a point or
an exponent is a double, any other a whole number; `NaN`, `Infinity` and `-Infinity` are numbers too.
Of equal keys in a mapping the first gives the place and the last the value. Text may not hold bare
control characters; a pair of surrogate escapes is one character, and one without its partner is kept
as it is.

`Limits` may bound the digits of whole numbers and the depth of nesting. The first fault of a text is
reported, from left to right. `Json.parse?` reads without limits.

A reader takes at most two steps per character, so twice the length of the text is fuel enough.
-/

namespace Cashflow.Json
open Cashflow.Text Cashflow.Decimal

def isSpace (c : Char) : Bool := c = ' ' || c = '\t' || c = '\n' || c = '\r'

def skip (s : List Char) : List Char := s.dropWhile isSpace

/-! ## Text -/

def hexValue? (c : Char) : Option Nat :=
  if isDigit c then some (c.toNat - 48)
  else if 'a' ≤ c ∧ c ≤ 'f' then some (c.toNat - 87)
  else if 'A' ≤ c ∧ c ≤ 'F' then some (c.toNat - 55)
  else none

def escaped? : Char → Option Char
  | '"' => some '"'
  | '\\' => some '\\'
  | '/' => some '/'
  | 'b' => some (Char.ofNat 0x08)
  | 'f' => some (Char.ofNat 0x0c)
  | 'n' => some '\n'
  | 'r' => some '\r'
  | 't' => some '\t'
  | _ => none

/-- A part of a text between its quotes. -/
inductive Piece where
  | char (c : Char)
  /-- A sixteen-bit unit, written by its number. -/
  | unit (code : Nat)

/-- The pieces of a text up to its closing quote, and what follows the quote. -/
def pieces (done : List Piece) : List Char → Option (List Piece × List Char)
  | [] => none
  | '"' :: r => some (done.reverse, r)
  | '\\' :: 'u' :: a :: b :: c :: d :: r =>
    match hexValue? a, hexValue? b, hexValue? c, hexValue? d with
    | some a, some b, some c, some d =>
      pieces (.unit (((a * 16 + b) * 16 + c) * 16 + d) :: done) r
    | _, _, _, _ => none
  | '\\' :: e :: r =>
    match escaped? e with
    | some c => pieces (.char c :: done) r
    | none => none
  | c :: r => if c.toNat < 0x20 ∨ c = '\\' then none else pieces (.char c :: done) r

def isHigh (unit : Nat) : Bool := decide (0xd800 ≤ unit) && decide (unit < 0xdc00)

def isLow (unit : Nat) : Bool := decide (0xdc00 ≤ unit) && decide (unit < 0xe000)

/-- The characters of pieces; a high and a low surrogate are joined to the one that they stand for. -/
def joined : List Piece → List Char
  | [] => []
  | .char c :: r => c :: joined r
  | .unit h :: .unit l :: r =>
    if isHigh h && isLow l then charsOf (0x10000 + (h - 0xd800) * 0x400 + (l - 0xdc00)) ++ joined r
    else charsOf h ++ joined (.unit l :: r)
  | .unit h :: r => charsOf h ++ joined r

/-- A text whose opening quote is already taken. -/
def text? (s : List Char) : Option (String × List Char) :=
  (pieces [] s).map fun (ps, r) => (String.ofList (joined ps), r)

/-! ## Numbers -/

/-- An exponent mark with its digits, when it is complete. -/
def exponentPart (s : List Char) : List Char × List Char :=
  match s with
  | e :: r =>
    if e = 'e' ∨ e = 'E' then
      let (sign, ds) := match r with
        | '-' :: ds => (['-'], ds)
        | '+' :: ds => (['+'], ds)
        | ds => ([], ds)
      let digits := ds.takeWhile isDigit
      if digits = [] then ([], s) else ('e' :: sign ++ digits, ds.dropWhile isDigit)
    else ([], s)
  | [] => ([], s)

/-- A point with the digits behind it, when there are any. -/
def fractionPart (s : List Char) : List Char × List Char :=
  match s with
  | '.' :: r =>
    let digits := r.takeWhile isDigit
    if digits = [] then ([], s) else ('.' :: digits, r.dropWhile isDigit)
  | _ => ([], s)

/-- A leading zero stands alone. -/
def wholePart (s : List Char) : List Char × List Char :=
  match s with
  | '0' :: r => (['0'], r)
  | _ => (s.takeWhile isDigit, s.dropWhile isDigit)

/-- Why a text is not read. -/
inductive ReadFault where
  | malformed
  /-- A whole number of more digits than are read. -/
  | longNumeral (digits : Nat)
  /-- Lists and mappings inside one another beyond the depth that is read. -/
  | nested
deriving DecidableEq

structure Limits where
  digits : Option Nat := none
  depth : Option Nat := none

/-- A value and what follows it. -/
abbrev Outcome := Except ReadFault (Value × List Char)

def whole (limits : Limits) (negative : Bool) (ds r : List Char) : Outcome :=
  if limits.digits.any (· < ds.length) then .error (.longNumeral ds.length)
  else
    let n : Int := digitsValue ds
    .ok (.int (if negative then -n else n), r)

def unsignedNumber (limits : Limits) (negative : Bool) (s : List Char) : Outcome :=
  let (ds, r) := wholePart s
  let (fraction, r) := fractionPart r
  let (exponent, r) := exponentPart r
  if ds = [] then .error .malformed
  else if fraction = [] ∧ exponent = [] then whole limits negative ds r
  else
    match unsigned? negative (ds ++ fraction ++ exponent) with
    | some x => .ok (.float x, r)
    | none => .error .malformed

/-! ## Values -/

/-- What follows the word, if the text starts with it. -/
def afterWord? : List Char → List Char → Option (List Char)
  | [], s => some s
  | _ :: _, [] => none
  | w :: ws, c :: s => if w = c then afterWord? ws s else none

def literals : List (String × Value) :=
  [("null", .null), ("true", .bool true), ("false", .bool false), ("NaN", .float undefined),
    ("Infinity", .float (infinity false)), ("-Infinity", .float (infinity true))]

def literal? (s : List Char) : Option (Value × List Char) :=
  literals.findSome? fun w => (afterWord? w.1.toList s).map fun r => (w.2, r)

def number (limits : Limits) : List Char → Outcome
  | '-' :: r => unsignedNumber limits true r
  | s => unsignedNumber limits false s

/-- The limits inside one more list or mapping, if there may be one. -/
def Limits.inside (limits : Limits) : Except ReadFault Limits :=
  match limits.depth with
  | some 0 => .error .nested
  | some (n + 1) => .ok { limits with depth := some n }
  | none => .ok limits

mutual

/-- A value that starts at the first character. -/
def value (limits : Limits) : Nat → List Char → Outcome
  | 0, _ => .error .malformed
  | fuel + 1, s =>
    match s with
    | '"' :: r =>
      match text? r with
      | some (t, r) => .ok (.text t, r)
      | none => .error .malformed
    | '[' :: r =>
      match limits.inside with
      | .error f => .error f
      | .ok limits =>
        match skip r with
        | ']' :: r => .ok (.list [], r)
        | r => items limits fuel [] r
    | '\x7b' :: r =>
      match limits.inside with
      | .error f => .error f
      | .ok limits =>
        match skip r with
        | '\x7d' :: r => .ok (.mapping [], r)
        | r => entries limits fuel [] r
    | s =>
      match literal? s with
      | some v => .ok v
      | none => number limits s

/-- The items of a list from the next one on. -/
def items (limits : Limits) : Nat → List Value → List Char → Outcome
  | 0, _, _ => .error .malformed
  | fuel + 1, done, s =>
    match value limits fuel s with
    | .error f => .error f
    | .ok (v, r) =>
      match skip r with
      | ',' :: r => items limits fuel (v :: done) (skip r)
      | ']' :: r => .ok (.list (v :: done).reverse, r)
      | _ => .error .malformed

/-- The entries of a mapping from the next one on. -/
def entries (limits : Limits) : Nat → List (String × Value) → List Char → Outcome
  | 0, _, _ => .error .malformed
  | fuel + 1, done, s =>
    match s with
    | '"' :: r =>
      match text? r with
      | none => .error .malformed
      | some (k, r) =>
        match skip r with
        | ':' :: r =>
          match value limits fuel (skip r) with
          | .error f => .error f
          | .ok (v, r) =>
            let done := Value.assign k v done
            match skip r with
            | ',' :: r => entries limits fuel done (skip r)
            | '\x7d' :: r => .ok (.mapping done, r)
            | _ => .error .malformed
        | _ => .error .malformed
    | _ => .error .malformed

end

def read (limits : Limits) (s : String) : Except ReadFault Value :=
  let cs := s.toList
  match value limits (2 * cs.length + 1) (skip cs) with
  | .ok (v, r) => if skip r = [] then .ok v else .error .malformed
  | .error f => .error f

def parse? (s : String) : Option Value := (read {} s).toOption

end Cashflow.Json

import Cashflow.Document.Value

/-!
# Writing JSON text

`Json.indented` puts every item on a line of its own, two blanks deeper than its container;
`Json.compact` writes one line. Whatever is not printable ASCII is escaped by its sixteen-bit units,
doubles are written in full, and the numbers that JSON lacks are `NaN`, `Infinity` and `-Infinity`.
-/

namespace Cashflow.Json
open Cashflow.Text

def unitEscape (n : Nat) : List Char := '\\' :: 'u' :: hexDigits 4 n

def escapedCode (code : Nat) : List Char :=
  if code = '"'.toNat ∨ code = '\\'.toNat then ['\\', Char.ofNat code]
  else if code = '\n'.toNat then ['\\', 'n']
  else if code = '\r'.toNat then ['\\', 'r']
  else if code = '\t'.toNat then ['\\', 't']
  else if code = 0x08 then ['\\', 'b']
  else if code = 0x0c then ['\\', 'f']
  else if 0x20 ≤ code ∧ code < 0x7f then [Char.ofNat code]
  else if code < 0x10000 then unitEscape code
  else
    let n := code - 0x10000
    unitEscape (0xd800 + n / 0x400) ++ unitEscape (0xdc00 + n % 0x400)

def textLiteral (s : String) : String :=
  String.ofList ('"' :: (codes s).flatMap escapedCode ++ ['"'])

def floatLiteral (x : Float) : String :=
  match Decimal.read x with
  | .undefined => "NaN"
  | .infinite negative => if negative then "-Infinity" else "Infinity"
  | .finite _ _ _ => Decimal.text x

def scalar : Value → String
  | .null => "null"
  | .bool b => if b then "true" else "false"
  | .int i => Value.intText i
  | .float x => floatLiteral x
  | v => textLiteral v.shown

/-- How items are set apart: `none` on one line, `some n` on lines `n` blanks deep. -/
abbrev Depth := Option Nat

def Depth.deeper (d : Depth) : Depth := d.map (· + 2)

def Depth.break (d : Depth) : String :=
  match d with
  | none => ""
  | some n => String.ofList ('\n' :: List.replicate n ' ')

def Depth.between (d : Depth) : String :=
  match d with
  | none => ", "
  | some _ => "," ++ d.break

/-- Items inside brackets; nothing stands between the brackets of an empty container. -/
def enclosed (d : Depth) (opening closing : String) (parts : List String) : String :=
  if parts.isEmpty then opening ++ closing
  else opening ++ d.deeper.break ++ String.intercalate d.deeper.between parts ++ d.break ++ closing

mutual

def write (d : Depth) : Value → String
  | .list items => enclosed d "[" "]" (writeItems d.deeper items)
  | .mapping entries => enclosed d "\x7b" "\x7d" (writeEntries d.deeper entries)
  | v => scalar v

def writeItems (d : Depth) : List Value → List String
  | [] => []
  | v :: r => write d v :: writeItems d r

def writeEntries (d : Depth) : List (String × Value) → List String
  | [] => []
  | (k, v) :: r => (textLiteral k ++ ": " ++ write d v) :: writeEntries d r

end

def compact (v : Value) : String := write none v

def indented (v : Value) : String := write (some 0) v

end Cashflow.Json

import Cashflow.Text.Hexadecimal
import Cashflow.Text.Numeral
import Cashflow.Text.Surrogate

/-!
# What cannot be encoded

A text is written to a file in UTF-8, which has no form for an unpaired surrogate. A path may hold
the surrogates that keep single bytes; any other stops it too. `EncodingFault` is the first run of
such codes, by its first code and the positions it covers.
-/

namespace Cashflow.Text

structure EncodingFault where
  code : Nat
  first : Nat
  last : Nat
deriving DecidableEq

def EncodingFault.message (f : EncodingFault) : String :=
  let place (n : Nat) := String.ofList (digits n)
  "'utf-8' codec can't encode character" ++
    (if f.first = f.last then s!" '\\u{String.ofList (hexDigits 4 f.code)}' in position {place f.first}"
    else s!"s in position {place f.first}-{place f.last}") ++ ": surrogates not allowed"

/-- The surrogates that keep single bytes. -/
def isByteCode (code : Nat) : Bool := decide (0xdc80 ≤ code) && decide (code ≤ 0xdcff)

/-- The first run of codes without a form, of which those at its start that `passes` lets by. -/
def encodingFaultFrom (passes : Nat → Bool) (position : Nat) : List Nat → Option EncodingFault
  | [] => none
  | code :: r =>
    if isSurrogate code && !passes code then
      some ⟨code, position, position + (r.takeWhile isSurrogate).length⟩
    else encodingFaultFrom passes (position + 1) r

def encodingFault? (s : String) : Option EncodingFault :=
  encodingFaultFrom (fun _ => false) 0 (codes s)

def pathEncodingFault? (path : String) : Option EncodingFault :=
  encodingFaultFrom isByteCode 0 (codes path)

end Cashflow.Text

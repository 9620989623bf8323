import Cashflow.Text.Hexadecimal
import Cashflow.Text.Printable
import Cashflow.Text.Surrogate

/-!
# Quoted text

A text is quoted with single quotes, or with double quotes when it holds a single quote and no
double one. Inside, the backslash, the quote in use, line feed, carriage return and tab get a
backslash; any other character that is not printable is written by its code in two, four or eight
hexadecimal digits.
-/

namespace Cashflow.Text

def codeEscape (code : Nat) : List Char :=
  if code < 0x100 then '\\' :: 'x' :: hexDigits 2 code
  else if code < 0x10000 then '\\' :: 'u' :: hexDigits 4 code
  else '\\' :: 'U' :: hexDigits 8 code

def quotedCode (quote : Char) (code : Nat) : List Char :=
  if code = quote.toNat ∨ code = '\\'.toNat then ['\\', Char.ofNat code]
  else if code = '\n'.toNat then ['\\', 'n']
  else if code = '\r'.toNat then ['\\', 'r']
  else if code = '\t'.toNat then ['\\', 't']
  else if isPrintable code then [Char.ofNat code]
  else codeEscape code

/-- The quote that a text is put in. -/
def quoteFor (s : List Char) : Char := if s.contains '\'' && !s.contains '"' then '"' else '\''

def quoted (s : String) : String :=
  let q := quoteFor s.toList
  String.ofList (q :: (codes s).flatMap (quotedCode q) ++ [q])

end Cashflow.Text

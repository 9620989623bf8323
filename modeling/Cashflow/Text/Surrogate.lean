/-!
# Unpaired surrogates

Text written in sixteen-bit units gives a character beyond the first plane a pair of surrogates, the
codes from `D800` to `DFFF`, and may hold one without its partner. No character has such a code, so
in a text an unpaired surrogate is kept by two characters: a mark, the last of all characters, and a
stand-in, which has the same low bits in plane 13. The mark itself is written twice. A text without
marks keeps its own characters.

* `charsOf` : the characters that keep a code;
* `codesOf` : the codes that characters keep, their own unless marked (`codesOf_cons_of_ne`), and
  `codes` those of a text;
* `marked`, `plain` : to and from a text that keeps characters only;
* `isAtMost` : the order of texts by their codes.
-/

namespace Cashflow.Text

def isSurrogate (code : Nat) : Bool := decide (0xd800 ≤ code) && decide (code < 0xe000)

/-- Where plane 13 begins. -/
def standInPlane : Nat := 0xd0000

def standIn (code : Nat) : Char := Char.ofNat (standInPlane + code)

def isStandIn (c : Char) : Bool := isSurrogate (c.toNat - standInPlane)

/-- Stands before what is no character of its own. -/
def mark : Char := Char.ofNat 0x10ffff

def charsOf (code : Nat) : List Char :=
  if isSurrogate code then [mark, standIn code]
  else if Char.ofNat code = mark then [mark, mark]
  else [Char.ofNat code]

def codesOf : List Char → List Nat
  | [] => []
  | [c] => [c.toNat]
  | m :: c :: r =>
    if m = mark ∧ c = mark then mark.toNat :: codesOf r
    else if m = mark ∧ isStandIn c then (c.toNat - standInPlane) :: codesOf r
    else m.toNat :: codesOf (c :: r)

def codes (s : String) : List Nat := codesOf s.toList

/-- A text of characters, its marks written twice. -/
def marked (s : String) : String := String.ofList (s.toList.flatMap fun c => charsOf c.toNat)

/-- What stands in the place of a surrogate where characters are needed. -/
def replacement : Char := Char.ofNat 0xfffd

def plain (s : String) : String :=
  String.ofList ((codes s).map fun code => if isSurrogate code then replacement else Char.ofNat code)

def codesAtMost : List Nat → List Nat → Bool
  | [], _ => true
  | _ :: _, [] => false
  | a :: r, b :: s => decide (a < b) || (decide (a = b) && codesAtMost r s)

def isAtMost (s t : String) : Bool := codesAtMost (codes s) (codes t)

theorem codesOf_cons_of_ne {c : Char} (h : c ≠ mark) (r : List Char) :
    codesOf (c :: r) = c.toNat :: codesOf r := by
  cases r <;> simp [codesOf, h]

end Cashflow.Text

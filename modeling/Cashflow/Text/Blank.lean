/-!
# Blank characters

`isBlank` is the white space that is dropped around names and dates: the ASCII blanks, the four
ASCII separators, the next-line mark and the spaces of all scripts. Around a numeral the four
ASCII separators are kept (`isNumeralBlank`), so a numeral beside one of them does not read.
-/

namespace Cashflow.Text

/-- Tab, line feed, vertical tab, form feed, carriage return, space. -/
def isPlainBlank (c : Char) : Bool := [0x09, 0x0a, 0x0b, 0x0c, 0x0d, 0x20].contains c.toNat

/-- The separators of files, groups, records and units. -/
def isSeparator (c : Char) : Bool := [0x1c, 0x1d, 0x1e, 0x1f].contains c.toNat

/-- The blanks beyond ASCII. -/
def isWideBlank (c : Char) : Bool :=
  [0x85, 0xa0, 0x1680, 0x2000, 0x2001, 0x2002, 0x2003, 0x2004, 0x2005, 0x2006, 0x2007, 0x2008,
    0x2009, 0x200a, 0x2028, 0x2029, 0x202f, 0x205f, 0x3000].contains c.toNat

def isNumeralBlank (c : Char) : Bool := isPlainBlank c || isWideBlank c

def isBlank (c : Char) : Bool := isNumeralBlank c || isSeparator c

/-- Without the characters of the class `p` at both ends. -/
def trimmed (p : Char → Bool) (s : List Char) : List Char :=
  (((s.dropWhile p).reverse).dropWhile p).reverse

theorem trimmed_of_ends {p : Char → Bool} {s : List Char}
    (hd : ∀ c ∈ s.head?, p c = false) (hl : ∀ c ∈ s.getLast?, p c = false) : trimmed p s = s := by
  have h : ∀ l : List Char, (∀ c ∈ l.head?, p c = false) → l.dropWhile p = l := by
    intro l hl
    cases l with
    | nil => rfl
    | cons c r => simp [List.dropWhile, hl c (by simp)]
  unfold trimmed
  rw [h s hd, h s.reverse (by simpa using hl), List.reverse_reverse]

theorem trimmed_of_forall {p : Char → Bool} {s : List Char} (h : ∀ c ∈ s, p c = false) :
    trimmed p s = s :=
  trimmed_of_ends (fun c hc => h c (List.mem_of_mem_head? hc))
    fun c hc => h c (List.mem_of_mem_getLast? hc)

/-- Nothing but blanks. -/
def isBlankText (s : String) : Bool := s.toList.all isBlank

end Cashflow.Text

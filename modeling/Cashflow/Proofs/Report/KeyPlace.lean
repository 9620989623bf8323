import Cashflow.Proofs.Calendar.MonthKey
import Cashflow.Report.Frequency
import Cashflow.Report.Period

/-!
# The place of a key

The key of a month is spelled out in full if its year has four figures, so a report places it where
the month lies (`ofKey_key`, `places_keys`): no other reading comes before that, since the key is not
empty, can be encoded and is no number. The place is labelled with the key again (`label_index`).
-/

namespace Cashflow
open Cashflow.Text

/-! ## Plain digits -/

namespace Text

theorem plainCapital_digitChar {d : Nat} (h : d < 10) :
    plainCapital (digitChar d) = [digitChar d] ∧ digitChar d ≠ '\x00' := by
  have : ∀ d < 10, plainCapital (digitChar d) = [digitChar d] ∧ digitChar d ≠ '\x00' := by decide
  exact this d h

theorem figure?_digitChar {d : Nat} (h : d < 10) : figure? (digitChar d) = some d := by
  have : ∀ d < 10, figure? (digitChar d) = some d := by decide
  exact this d h

theorem isPlainBlank_digitChar {d : Nat} (h : d < 10) : isPlainBlank (digitChar d) = false := by
  have : ∀ d < 10, isPlainBlank (digitChar d) = false := by decide
  exact this d h

theorem encodable_digitChar {d : Nat} (h : d < 10) :
    digitChar d ≠ mark ∧ isSurrogate (digitChar d).toNat = false := by
  have : ∀ d < 10, digitChar d ≠ mark ∧ isSurrogate (digitChar d).toNat = false := by decide
  exact this d h

theorem plainDigit_digitChar {d : Nat} (h : d < 10) :
    Decimal.plainDigit (digitChar d) = digitChar d ∧ Decimal.isDigit (digitChar d) = true := by
  have : ∀ d < 10, Decimal.plainDigit (digitChar d) = digitChar d ∧
      Decimal.isDigit (digitChar d) = true := by decide
  exact this d h

/-- Text without marks and surrogates can be encoded. -/
theorem encodingFault?_of_forall {s : List Char}
    (h : ∀ c ∈ s, c ≠ mark ∧ isSurrogate c.toNat = false) :
    encodingFault? (String.ofList s) = none := by
  have hfrom : ∀ position, encodingFaultFrom (fun _ => false) position (codesOf s) = none := by
    induction s with
    | nil => exact fun _ => rfl
    | cons c s ih =>
      obtain ⟨⟨hmark, hcode⟩, hs⟩ := List.forall_mem_cons.1 h
      intro position
      rw [codesOf_cons_of_ne hmark, encodingFaultFrom, hcode]
      exact ih hs (position + 1)
  rw [encodingFault?, codes, String.toList_ofList]
  exact hfrom 0

theorem dropUnderscores_of_forall {s : List Char} (h : ∀ c ∈ s, c ≠ '_') (afterDigit : Bool) :
    Decimal.dropUnderscores afterDigit s = some s := by
  induction s generalizing afterDigit with
  | nil => rfl
  | cons c s ih =>
    obtain ⟨hc, hs⟩ := List.forall_mem_cons.1 h
    rw [Decimal.dropUnderscores.eq_def]
    split
    · contradiction
    · rename_i he
      exact absurd (List.cons.inj he).1 hc
    · rename_i he
      obtain ⟨rfl, rfl⟩ := List.cons.inj he
      rw [if_neg hc, ih hs]
      rfl

theorem ofList_ne {s : List Char} {n : Nat} (hs : s.length = n) (word : String)
    (h : word.toList.length ≠ n) : String.ofList s ≠ word := by
  rintro rfl
  exact h ((congrArg List.length String.toList_ofList).trans hs)

theorem not_contains_ofList {s : List Char} {n : Nat} (hs : s.length = n) {words : List String}
    (h : ∀ word ∈ words, word.toList.length ≠ n) : words.contains (String.ofList s) = false := by
  rw [← Bool.not_eq_true, List.contains_iff_mem]
  exact fun hmem => ofList_ne hs _ (h _ hmem) rfl

/-- A dash behind figures is neither a point nor an exponent. -/
theorem unsigned?_of_dash {negative : Bool} {s r : List Char}
    (h : s.dropWhile Decimal.isDigit = '-' :: r) : Decimal.unsigned? negative s = none := by
  have hexponent : Decimal.exponent? ('-' :: r) = none := by simp [Decimal.exponent?]
  simp [Decimal.unsigned?, h, hexponent]

/-- A number of four figures. -/
theorem digits_of_four {n : Nat} (h : 1000 ≤ n) (h' : n ≤ 9999) :
    digits n = [digitChar (n / 1000), digitChar (n / 100 % 10), digitChar (n / 10 % 10),
      digitChar (n % 10)] := by
  rw [digits_of_le (n := n) (by omega), digits_of_le (n := n / 10) (by omega),
    digits_of_le (n := n / 10 / 10) (by omega), digits_of_lt (n := n / 10 / 10 / 10) (by omega)]
  simp only [Nat.div_div_eq_div_mul, List.cons_append, List.nil_append]

end Text

/-! ## Keys of four figures -/

theorem Date.machineFault?_eq_none {i : Int} (h : 0 ≤ i) (h' : i ≤ 9999) :
    machineFault? i = none := by
  have hword : wordEnd = 9223372036854775808 := rfl
  have hmachine : machineEnd = 2147483648 := rfl
  rw [machineFault?, if_neg (by omega), if_neg (by omega), if_neg (by omega)]

theorem Date.civil_first {y m : Int} (hy : 1 ≤ y) (hy' : y ≤ 9999) (hm : 1 ≤ m) (hm' : m ≤ 12) :
    civil ⟨y, m, 1⟩ = .ok ⟨y, m, 1⟩ := by
  have hfault : [y, m, 1].findSome? machineFault? = none := by
    simp only [List.findSome?_eq_none_iff, List.mem_cons, List.not_mem_nil, or_false]
    rintro _ (rfl | rfl | rfl)
    · exact machineFault?_eq_none (by omega) hy'
    · exact machineFault?_eq_none (by omega) (by omega)
    · exact machineFault?_eq_none (by decide) (by decide)
  have hyear : ¬ (y < 1 ∨ 9999 < y) := by omega
  have hdays : ¬ ((1 : Int) < 1 ∨ daysInMonth y m < 1) := by
    rw [daysInMonth]
    repeat' split
    all_goals omega
  rw [civil, hfault]
  dsimp only
  rw [if_neg hyear, if_neg (Classical.not_not.2 ⟨hm, hm'⟩), if_neg hdays]

/-- A year of four figures, a dash and a month of two. -/
def spelling (y m : Nat) : List Char :=
  [digitChar (y / 1000), digitChar (y / 100 % 10), digitChar (y / 10 % 10), digitChar (y % 10), '-',
    digitChar (m / 10), digitChar (m % 10)]

theorem Date.toList_key_eq_spelling {d : Date} (hd : d.HasMonth) (hy : 1000 ≤ d.year)
    (hy' : d.year ≤ 9999) : d.key.toList = spelling d.year.toNat d.month.toNat := by
  obtain ⟨y, hyear⟩ : ∃ y : Nat, d.year = y := ⟨d.year.toNat, by omega⟩
  obtain ⟨m, hmonth⟩ : ∃ m : Nat, d.month = m := ⟨d.month.toNat, by simp only [HasMonth] at hd; omega⟩
  have hinteger : integer d.year = digits y := by
    rw [hyear, integer, signed, if_neg (by omega)]
    rfl
  rw [toList_key, hinteger, digits_of_four (by omega) (by omega),
    padded_two (by simp only [HasMonth] at hd; omega) (by simp only [HasMonth] at hd; omega),
    hyear, hmonth]
  rfl

section Spelling
variable {y m : Nat} (hy : 1000 ≤ y) (hy' : y ≤ 9999) (hm : 1 ≤ m) (hm' : m ≤ 12)
include hy hy' hm hm'

theorem read?_spelling : Spelled.read? (spelling y m) = some { year := y, month := m } := by
  have hyear : figures? 4 (spelling y m) = some (y, ['-', digitChar (m / 10), digitChar (m % 10)]) := by
    simp (disch := omega) only [figures?, spelling, figuresAfter, figure?_digitChar, Option.bind_some,
      Option.some.injEq, Prod.mk.injEq, and_true]
    omega
  have hmonth : figures? 2 [digitChar (m / 10), digitChar (m % 10)] = some (m, []) := by
    simp (disch := omega) only [figures?, figuresAfter, figure?_digitChar, Option.bind_some,
      Option.some.injEq, Prod.mk.injEq, and_true]
    omega
  have hafter : Spelled.afterYear? y ['-', digitChar (m / 10), digitChar (m % 10)] =
      some { year := y, month := m } := by
    show Spelled.month? { year := y } (some '-') [digitChar (m / 10), digitChar (m % 10)] = _
    have hlow : m ≠ 0 := by omega
    simp [Spelled.month?, Spelled.pair?, figuresUpTo2?, hmonth, hlow, hm']
  have hof : Spelled.ofYear? 1 (spelling y m) = some { year := y, month := m } := by
    rw [Spelled.ofYear?.eq_def, hyear]
    simpa [spelling] using hafter
  have hfront : (spelling y m).dropWhile isPlainBlank = spelling y m :=
    List.dropWhile_cons_of_neg (by simp (disch := omega) [isPlainBlank_digitChar])
  have hdash : ∀ r, spelling y m ≠ '-' :: r := fun r h =>
    (digitChar_ne (by omega)).2 (List.cons.inj h).1
  unfold Spelled.read?
  split
  · exact absurd (by assumption) (hdash _)
  · rw [hfront]
    split
    · exact absurd (by assumption) (hdash _)
    · exact hof

theorem mem_spelling {c : Char} (h : c ∈ spelling y m) : c = '-' ∨ ∃ d < 10, c = digitChar d := by
  simp only [spelling, List.mem_cons, List.not_mem_nil, or_false] at h
  rcases h with rfl | rfl | rfl | rfl | rfl | rfl | rfl
  · exact Or.inr ⟨_, by omega, rfl⟩
  · exact Or.inr ⟨_, by omega, rfl⟩
  · exact Or.inr ⟨_, by omega, rfl⟩
  · exact Or.inr ⟨_, by omega, rfl⟩
  · exact Or.inl rfl
  · exact Or.inr ⟨_, by omega, rfl⟩
  · exact Or.inr ⟨_, by omega, rfl⟩

/-- What holds of the dash and of plain digits holds of the characters of a spelling. -/
theorem forall_mem_spelling {p : Char → Prop} (hdash : p '-') (hdigit : ∀ d < 10, p (digitChar d)) :
    ∀ c ∈ spelling y m, p c := by
  intro c hc
  rcases mem_spelling hy hy' hm hm' hc with rfl | ⟨d, hd, rfl⟩
  · exact hdash
  · exact hdigit d hd

theorem number?_spelling : Decimal.number? (spelling y m) = none := by
  have hall : ∀ {p : Char → Prop}, p '-' → (∀ d < 10, p (digitChar d)) →
      ∀ c ∈ spelling y m, p c := forall_mem_spelling hy hy' hm hm'
  have htrimmed : trimmed isNumeralBlank (spelling y m) = spelling y m :=
    trimmed_of_forall (hall (by decide) (by decide))
  have hsame : ∀ c ∈ spelling y m, Decimal.plainDigit c = id c := hall (by decide) (by decide)
  have hplain : (spelling y m).map Decimal.plainDigit = spelling y m := by
    rw [List.map_congr_left hsame, List.map_id]
  have hclear : Decimal.dropUnderscores false (spelling y m) = some (spelling y m) :=
    dropUnderscores_of_forall (hall (by decide) (by decide)) false
  have hdash : ∀ r, spelling y m ≠ '-' :: r := fun r h =>
    (digitChar_ne (by omega)).2 (List.cons.inj h).1
  have hplus : ∀ r, spelling y m ≠ '+' :: r := fun r h =>
    (digitChar_plain (by omega)).1 (List.cons.inj h).1
  have hnamed : Decimal.named? false (spelling y m) = none := by
    have hword := ofList_ne (s := (spelling y m).map Decimal.lower) (n := 7) rfl
    unfold Decimal.named?
    dsimp only
    rw [if_neg (not_or.2 ⟨hword "inf" (by decide), hword "infinity" (by decide)⟩),
      if_neg (hword "nan" (by decide))]
  have hwhole : (spelling y m).dropWhile Decimal.isDigit =
      ['-', digitChar (m / 10), digitChar (m % 10)] := by
    have hstop : Decimal.isDigit '-' = false := by decide
    simp (disch := omega) [spelling, List.dropWhile_cons, plainDigit_digitChar, hstop]
  have hunsigned : Decimal.unsigned? false (spelling y m) = none := unsigned?_of_dash hwhole
  rw [Decimal.number?, htrimmed, hplain, hclear, Option.bind_some]
  split
  rename_i negative r hsign
  split at hsign
  · exact absurd (by assumption) (hdash _)
  · exact absurd (by assumption) (hplus _)
  · cases hsign
    rw [hnamed, hunsigned]
    rfl

theorem isNumber_spelling : Period.isNumber (spelling y m) = false := by
  have hletter : ["A", "D", "M", "T"].contains (String.ofList (spelling y m)) = false :=
    not_contains_ofList (n := 7) rfl (by decide)
  rw [Period.isNumber, number?_spelling hy hy' hm hm', hletter]
  simp

theorem day_spelling : Period.day (spelling y m) = .ok ⟨⟨y, m, 1⟩, false⟩ := by
  have hencoded : encodingFault? (String.ofList (spelling y m)) = none :=
    encodingFault?_of_forall (forall_mem_spelling hy hy' hm hm' (by decide)
      fun _ => encodable_digitChar)
  have hcivil : Date.civil ⟨y, m, 1⟩ = .ok ⟨y, m, 1⟩ :=
    Date.civil_first (by omega) (by omega) (by omega) (by omega)
  rw [Period.day, hencoded]
  dsimp only
  rw [isNumber_spelling hy hy' hm hm', if_neg Bool.false_ne_true, read?_spelling hy hy' hm hm']
  show Except.map _ ((Date.civil ⟨y, m, 1⟩).mapError PeriodFault.civil) = _
  rw [hcivil]
  rfl

theorem capitals_spelling :
    (((spelling y m).flatMap plainCapital).reverse.dropWhile (· = '\x00')).reverse =
      spelling y m := by
  have hcapital : (spelling y m).flatMap plainCapital = spelling y m := by
    simp (disch := omega) [spelling, plainCapital_digitChar, show plainCapital '-' = ['-'] by decide]
  rw [hcapital]
  simp (disch := omega) [spelling, List.dropWhile_cons, plainCapital_digitChar]

end Spelling

/-- A report places the key of a month with a year of four figures where the month lies. -/
theorem Period.ofKey_key {d : Date} (hd : d.HasMonth) (hy : 1000 ≤ d.year) (hy' : d.year ≤ 9999) :
    Period.ofKey d.key = .ok (some d.index) := by
  obtain ⟨hm, hm'⟩ := hd
  have hcapitals : capitalsOf d.key = spelling d.year.toNat d.month.toNat := by
    rw [capitalsOf, raised, String.toList_ofList, Date.toList_key_eq_spelling ⟨hm, hm'⟩ hy hy']
    exact capitals_spelling (by omega) (by omega) (by omega) (by omega)
  have hmissing : isMissing (spelling d.year.toNat d.month.toNat) = false :=
    not_contains_ofList (n := 7) rfl (by decide)
  rw [ofKey, hcapitals, hmissing, if_neg Bool.false_ne_true, firstDay,
    day_spelling (by omega) (by omega) (by omega) (by omega)]
  show Except.ok (some ((d.year.toNat : Int) * 12 + ((d.month.toNat : Int) - 1))) = _
  rw [Int.toNat_of_nonneg (by omega), Int.toNat_of_nonneg (by omega)]
  rfl

theorem Period.places_keys {months : List Date}
    (h : ∀ d ∈ months, d.HasMonth ∧ 1000 ≤ d.year ∧ d.year ≤ 9999) :
    Period.places (months.map Date.key) = .ok (months.map fun d => some d.index) := by
  induction months with
  | nil => rfl
  | cons d months ih =>
    obtain ⟨⟨hd, hy, hy'⟩, hmonths⟩ := List.forall_mem_cons.1 h
    rw [List.map_cons, Period.places, Period.ofKey_key hd hy hy', ih hmonths]
    rfl

/-! ## Labels -/

theorem padded_four {i : Int} (h : 1000 ≤ i) (h' : i ≤ 9999) : padded 4 i = integer i := by
  have hs : ∀ body, signed i body = body := fun body => if_neg (by omega)
  simp only [padded, integer, hs, digits_of_four (n := i.natAbs) (by omega) (by omega)]
  rfl

end Cashflow

import Cashflow.Calendar.Key

/-!
# Month keys, written and read back

* `integer?_integer` : a whole number reads back from its decimal notation;
* `padded_two` : a month number is written with two digits, so a key ends in a dash and two
  characters (`toList_key`);
* `key_inj`, `key_eq_iff` : calendar months with one key are the same month;
* `keyYear?_key`, `keyYear?_key_of_neg` : the year reads back from a key, for the years from zero on
  and no others: the key of an earlier year starts with a dash.
-/

namespace Cashflow.Text

/-! ## Whole numbers -/

theorem mem_digits {n : Nat} {c : Char} (h : c ∈ digits n) : ∃ d < 10, c = digitChar d := by
  induction n using Nat.strongRecOn with
  | _ n ih =>
    by_cases hn : n < 10
    · rw [digits_of_lt hn, List.mem_singleton] at h
      exact ⟨n, hn, h⟩
    · rw [digits_of_le (Nat.le_of_not_lt hn), List.mem_append, List.mem_singleton] at h
      rcases h with h | h
      · exact ih (n / 10) (by omega) h
      · exact ⟨n % 10, Nat.mod_lt n (by decide), h⟩

theorem not_mem_digits (n : Nat) : '_' ∉ digits n ∧ '-' ∉ digits n := by
  constructor <;> intro h <;> obtain ⟨d, hd, he⟩ := mem_digits h
  · exact (digitChar_ne hd).1 he.symm
  · exact (digitChar_ne hd).2 he.symm

theorem digitsAfter_cons {c : Char} (h : c ≠ '_') (k : Nat) (r : List Char) :
    digitsAfter k (c :: r) = (digitValue? c).bind fun d => digitsAfter (10 * k + d) r := by
  rw [digitsAfter.eq_def]
  split
  · contradiction
  · rename_i he
    exact absurd (List.cons.inj he).1 h
  · rename_i he
    obtain ⟨rfl, rfl⟩ := List.cons.inj he
    rfl

theorem digitsAfter_concat {s : List Char} (hs : '_' ∉ s) {k m d : Nat} (hd : d < 10)
    (h : digitsAfter k s = some m) : digitsAfter k (s ++ [digitChar d]) = some (10 * m + d) := by
  induction s generalizing k with
  | nil =>
    obtain rfl := Option.some.inj h
    rw [List.nil_append, digitsAfter_cons (digitChar_ne hd).1, digitValue?_digitChar hd]
    rfl
  | cons c r ih =>
    simp only [List.mem_cons, not_or] at hs
    rw [digitsAfter_cons (Ne.symm hs.1)] at h
    obtain ⟨e, he, h⟩ := Option.bind_eq_some_iff.1 h
    rw [List.cons_append, digitsAfter_cons (Ne.symm hs.1), he]
    exact ih hs.2 h

theorem natural?_digits (n : Nat) : natural? (digits n) = some n := by
  -- Digits are written by the last one and read by the first, so the front is read before it.
  induction n using Nat.strongRecOn with
  | _ n ih =>
    by_cases hn : n < 10
    · rw [digits_of_lt hn, natural?, digitValue?_digitChar hn]
      rfl
    · have front := ih (n / 10) (by omega)
      have clear := (not_mem_digits (n / 10)).1
      rw [digits_of_le (Nat.le_of_not_lt hn)]
      cases hs : digits (n / 10) with
      | nil => exact absurd hs (digits_ne_nil _)
      | cons c r =>
        rw [hs] at front clear
        obtain ⟨d, hd, h⟩ := Option.bind_eq_some_iff.1 front
        have := digitsAfter_concat (fun h => clear (List.mem_cons_of_mem c h))
          (Nat.mod_lt n (by decide : 0 < 10)) h
        rw [List.cons_append, natural?, hd]
        exact this.trans (by rw [Nat.div_add_mod])

theorem digitChar_plain {d : Nat} (h : d < 10) :
    digitChar d ≠ '+' ∧ isNumeralBlank (digitChar d) = false := by
  have : ∀ d < 10, digitChar d ≠ '+' ∧ isNumeralBlank (digitChar d) = false := by decide
  exact this d h

theorem mem_integer {i : Int} {c : Char} (h : c ∈ integer i) : isNumeralBlank c = false := by
  have hc : c = '-' ∨ c ∈ digits i.natAbs := by
    unfold integer signed at h
    split at h
    · exact List.mem_cons.1 h
    · exact Or.inr h
  rcases hc with rfl | hc
  · decide
  · obtain ⟨d, hd, rfl⟩ := mem_digits hc
    exact (digitChar_plain hd).2

/-- In front of a digit there is no sign. -/
theorem signedNumeral?_of_digits {s : List Char} (hne : s ≠ [])
    (h : ∀ c ∈ s, ∃ d < 10, c = digitChar d) :
    signedNumeral? s = (natural? s).map Int.ofNat ∧ unsigned s = s := by
  cases s with
  | nil => exact absurd rfl hne
  | cons c r =>
    obtain ⟨d, hd, rfl⟩ := h c List.mem_cons_self
    have hminus : ∀ t, digitChar d :: r ≠ '-' :: t := by
      intro t he
      exact (digitChar_ne hd).2 (List.cons.inj he).1
    have hplus : ∀ t, digitChar d :: r ≠ '+' :: t := by
      intro t he
      exact (digitChar_plain hd).1 (List.cons.inj he).1
    constructor
    · rw [signedNumeral?]
      · exact hminus
      · exact hplus
    · rw [unsigned]
      · exact hminus
      · exact hplus

theorem signedNumeral?_integer (i : Int) : signedNumeral? (integer i) = some i := by
  unfold integer signed
  split
  · rw [signedNumeral?, natural?_digits]
    show some (-(i.natAbs : Int)) = some i
    rw [show -(i.natAbs : Int) = i by omega]
  · rw [(signedNumeral?_of_digits (digits_ne_nil _) fun c hc => mem_digits hc).1, natural?_digits]
    show some (i.natAbs : Int) = some i
    rw [show (i.natAbs : Int) = i by omega]

theorem integer?_integer (i : Int) : integer? (integer i) = some i := by
  rw [integer?, trimmed_of_forall fun c hc => mem_integer hc, signedNumeral?_integer]

theorem integer_inj {i j : Int} (h : integer i = integer j) : i = j := by
  have := congrArg integer? h
  rw [integer?_integer, integer?_integer] at this
  exact Option.some.inj this

theorem digitChar_inj {d e : Nat} (hd : d < 10) (he : e < 10) (h : digitChar d = digitChar e) :
    d = e := by
  have := congrArg digitValue? h
  rw [digitValue?_digitChar hd, digitValue?_digitChar he] at this
  exact Option.some.inj this

theorem padded_two {m : Int} (h : 0 ≤ m) (h' : m < 100) :
    padded 2 m = [digitChar (m.natAbs / 10), digitChar (m.natAbs % 10)] := by
  have hs : ∀ body, signed m body = body := fun body => if_neg (by omega)
  simp only [padded, hs]
  by_cases hm : m.natAbs < 10
  · rw [digits_of_lt hm, Nat.div_eq_of_lt hm, Nat.mod_eq_of_lt hm]
    rfl
  · rw [digits_of_le (Nat.le_of_not_lt hm), digits_of_lt (n := m.natAbs / 10) (by omega)]
    rfl

end Cashflow.Text

namespace Cashflow
open Cashflow.Text

namespace Date

/-! ## Keys -/

theorem toList_key (d : Date) : d.key.toList = integer d.year ++ '-' :: padded 2 d.month :=
  String.toList_ofList

theorem key_inj {a b : Date} (ha : a.HasMonth) (hb : b.HasMonth) (h : a.key = b.key) :
    a.year = b.year ∧ a.month = b.month := by
  simp only [HasMonth] at ha hb
  have hl := congrArg String.toList h
  rw [toList_key, toList_key, padded_two (by omega) (by omega),
    padded_two (m := b.month) (by omega) (by omega)] at hl
  -- Years may have any number of digits; what follows them has three characters in both keys.
  obtain ⟨hy, hm⟩ := List.append_inj' hl rfl
  simp only [List.cons.injEq, true_and, and_true] at hm
  have hd := digitChar_inj (by omega) (by omega) hm.1
  have hu := digitChar_inj (Nat.mod_lt _ (by decide)) (Nat.mod_lt _ (by decide)) hm.2
  exact ⟨integer_inj hy, by omega⟩

theorem key_eq_of {a b : Date} (hy : a.year = b.year) (hm : a.month = b.month) : a.key = b.key := by
  rw [key, key, hy, hm]

theorem key_eq_iff {a b : Date} (ha : a.HasMonth) (hb : b.HasMonth) :
    a.key = b.key ↔ a.sameMonth b = true := by
  simp only [sameMonth, Bool.and_eq_true, decide_eq_true_eq]
  exact ⟨key_inj ha hb, fun h => key_eq_of h.1 h.2⟩

theorem keyHead_key {d : Date} (h : 0 ≤ d.year) : keyHead d.key = integer d.year := by
  have hs : integer d.year = digits d.year.natAbs := if_neg (by omega)
  rw [keyHead, toList_key, hs, List.takeWhile_append_of_pos, List.takeWhile_cons_of_neg (by simp),
    List.append_nil]
  intro c hc
  have := (not_mem_digits d.year.natAbs).2
  exact decide_eq_true fun he => this (he ▸ hc)

theorem keyHead_key_of_neg {d : Date} (h : d.year < 0) : keyHead d.key = [] := by
  have hs : integer d.year = '-' :: digits d.year.natAbs := if_pos h
  rw [keyHead, toList_key, hs]
  exact List.takeWhile_cons_of_neg (by simp)

theorem keyYear?_key {d : Date} (h : 0 ≤ d.year) : keyYear? d.key = some d.year := by
  rw [keyYear?, keyHead_key h, integer?_integer]

theorem keyYear?_key_of_neg {d : Date} (h : d.year < 0) : keyYear? d.key = none := by
  rw [keyYear?, keyHead_key_of_neg h]
  rfl

end Date

end Cashflow

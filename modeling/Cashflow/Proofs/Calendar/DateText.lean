import Mathlib.Algebra.Group.Nat.Defs
import Mathlib.Data.List.TakeWhile
import Cashflow.Proofs.Calendar.MonthKey
import Cashflow.Proofs.Except

/-!
# Dates, written and read back

* `readInteger_padded` : a number from zero on reads back from its padded notation, unless it has too
  many digits; no number with too many digits is read from anything (`not_tooLong_of_readInteger`);
* `length_pieces`, `pieces_text` : a date text has one dash more for each part below zero, and without
  one it falls into its three parts;
* `Date.IsPlain` : the dates that read back from their text (`parse_text_eq_ok`), among them all
  that are read from a text (`isPlain_of_parse`);
* `parse_key`, `keyYear_key` : the key of a month reads back as its first day, and its front as the
  year, for the years from zero on that are short enough.
-/

namespace Cashflow.Text

/-! ## Numerals that read -/

/-- A numeral and a bound for its value, `k` being what was read before it. -/
def Bounded (k n : Nat) (s : List Char) : Prop :=
  (∀ c ∈ s, isNumeralChar c = true) ∧ n < (k + 1) * 10 ^ s.countP (· ≠ '_')

theorem Bounded.digit {k n d : Nat} {c : Char} {r : List Char} (hc : digitValue? c = some d)
    (h : Bounded (10 * k + d) n r) : Bounded k n (c :: r) := by
  have hd := digitValue?_lt_ten hc
  have hne : c ≠ '_' := by
    rintro rfl
    rw [show digitValue? '_' = none by decide] at hc
    cases hc
  refine ⟨List.forall_mem_cons.2 ⟨by simp [isNumeralChar, hc], h.1⟩, ?_⟩
  rw [List.countP_cons_of_pos (by simpa using hne), Nat.pow_succ', ← Nat.mul_assoc]
  exact Nat.lt_of_lt_of_le h.2 (Nat.mul_le_mul_right _ (by omega))

theorem Bounded.underscore {k n : Nat} {r : List Char} (h : Bounded k n r) :
    Bounded k n ('_' :: r) := by
  refine ⟨List.forall_mem_cons.2 ⟨by decide, h.1⟩, ?_⟩
  rw [List.countP_cons_of_neg (by simp)]
  exact h.2

theorem bounded_of_digitsAfter {k n : Nat} {s : List Char} (h : digitsAfter k s = some n) :
    Bounded k n s := by
  fun_induction digitsAfter k s with
  | case1 k =>
    cases h
    exact ⟨List.forall_mem_nil _, by simp⟩
  | case2 k c r ih =>
    obtain ⟨d, hd, h⟩ := Option.bind_eq_some_iff.1 h
    exact (Bounded.digit hd (ih d h)).underscore
  | case3 k c r hne ih =>
    obtain ⟨d, hd, h⟩ := Option.bind_eq_some_iff.1 h
    exact Bounded.digit hd (ih d h)

theorem bounded_of_natural? {n : Nat} {s : List Char} (h : natural? s = some n) : Bounded 0 n s := by
  cases s with
  | nil => cases h
  | cons c r =>
    obtain ⟨d, hd, h⟩ := Option.bind_eq_some_iff.1 h
    exact Bounded.digit hd (bounded_of_digitsAfter (by simpa using h))

/-- A numeral that reads is not too long as soon as its digits are not too many. -/
theorem excess?_of_natural? {n : Nat} {s : List Char} (h : natural? s = some n) :
    excess? s = none ↔ s.countP (· ≠ '_') ≤ digitLimit := by
  have hall : s.takeWhile isNumeralChar = s :=
    List.takeWhile_eq_self_iff.2 (bounded_of_natural? h).1
  simp only [excess?, hall, h, Option.isSome_some, and_true]
  split
  · rename_i hmany
    exact ⟨fun he => (nomatch he), fun hfew => absurd hfew (Nat.not_le.2 hmany)⟩
  · rename_i hfew
    exact ⟨fun _ => Nat.not_lt.1 hfew, fun _ => rfl⟩

/-- The number behind a sign is read as a natural one, with the sign that is there. -/
theorem natural?_of_signedNumeral? {i : Int} {s : List Char} (h : signedNumeral? s = some i) :
    natural? (unsigned s) = some i.natAbs ∧ (i < 0 → s.head? = some '-') := by
  unfold signedNumeral? at h
  split at h
  · obtain ⟨_, hlift, rfl⟩ := Option.map_eq_some_iff.1 h
    obtain ⟨n, hn, hcast⟩ := Option.bind_eq_some_iff.1 hlift
    cases hcast
    exact ⟨by simpa [unsigned] using hn, fun _ => rfl⟩
  · obtain ⟨n, hn, rfl⟩ := Option.map_eq_some_iff.1 h
    exact ⟨by simpa [unsigned] using hn, fun hlt => absurd hlt (by simp)⟩
  · rename_i hminus hplus
    obtain ⟨n, hn, rfl⟩ := Option.map_eq_some_iff.1 h
    refine ⟨?_, fun hlt => absurd hlt (by simp)⟩
    rw [unsigned.eq_def]
    split
    · exact absurd rfl (hminus _)
    · exact absurd rfl (hplus _)
    · simpa using hn

theorem readInteger_eq_ok {s : List Char} {i : Int} :
    readInteger s = .ok i ↔ signedNumeral? (trimmed isNumeralBlank s) = some i ∧
      excess? (unsigned (trimmed isNumeralBlank s)) = none := by
  unfold readInteger
  dsimp only
  split <;> simp_all

theorem isTooLong_eq_false {i : Int} : isTooLong i = false ↔ i.natAbs < 10 ^ digitLimit := by
  rw [isTooLong, decide_eq_false_iff_not, Nat.not_le, Nat.pow_eq]

/-- No number that is read has too many digits. -/
theorem not_tooLong_of_readInteger {s : List Char} {i : Int} (h : readInteger s = .ok i) :
    isTooLong i = false := by
  obtain ⟨hi, hexcess⟩ := readInteger_eq_ok.1 h
  have hn := (natural?_of_signedNumeral? hi).1
  have hbound := (bounded_of_natural? hn).2
  rw [Nat.zero_add, Nat.one_mul] at hbound
  exact isTooLong_eq_false.2 (Nat.lt_of_lt_of_le hbound
    (Nat.pow_le_pow_right (by decide) ((excess?_of_natural? hn).1 hexcess)))

/-! ## Padded numbers -/

theorem length_digits_le {n k : Nat} (hk : 0 < k) (h : n < 10 ^ k) : (digits n).length ≤ k := by
  induction k generalizing n with
  | zero => exact absurd hk (Nat.lt_irrefl 0)
  | succ k ih =>
    by_cases hn : n < 10
    · rw [digits_of_lt hn]
      exact hk
    · have hk : 0 < k := by
        rcases Nat.eq_zero_or_pos k with rfl | hk
        · exact absurd h hn
        · exact hk
      rw [digits_of_le (Nat.le_of_not_lt hn), List.length_append]
      exact Nat.succ_le_succ (ih hk (by rw [Nat.pow_succ'] at h; omega))

theorem padded_zero (i : Int) : padded 0 i = integer i := by
  simp only [padded, Nat.zero_sub, List.replicate_zero, List.nil_append, integer]

theorem padded_of_nonneg {w : Nat} {i : Int} (h : 0 ≤ i) :
    padded w i = List.replicate (w - (digits i.natAbs).length) '0' ++ digits i.natAbs := by
  have hs : ∀ body, signed i body = body := fun body => if_neg (by omega)
  simp only [padded, hs]

theorem natural?_zeros_append (k : Nat) {s : List Char} (hs : s ≠ []) (hu : '_' ∉ s) :
    natural? (List.replicate k '0' ++ s) = natural? s := by
  -- A zero in front leaves nothing behind, unless an underscore joins it to what follows.
  have skip : ∀ t : List Char, t ≠ [] → '_' ∉ t → digitsAfter 0 t = natural? t := by
    intro t ht hu
    cases t with
    | nil => contradiction
    | cons c r =>
      rw [digitsAfter_cons (by rintro rfl; simp at hu), natural?]
      simp
  induction k with
  | zero => rfl
  | succ k ih =>
    rw [List.replicate_succ, List.cons_append, natural?, show digitValue? '0' = some 0 by decide,
      Option.bind_some, skip _ (by simp [hs]) (by simp [hu]), ih]

theorem mem_padded {w : Nat} {i : Int} {c : Char} (hc : c ∈ padded w i) :
    i < 0 ∧ c = '-' ∨ ∃ d < 10, c = digitChar d := by
  have hbody : ∀ k, c ∈ List.replicate k '0' ++ digits i.natAbs → ∃ d < 10, c = digitChar d := by
    intro k hc
    rcases List.mem_append.1 hc with hc | hc
    · exact ⟨0, by decide, (List.eq_of_mem_replicate hc).trans (by decide)⟩
    · exact mem_digits hc
  unfold padded signed at hc
  by_cases hi : i < 0
  · simp only [if_pos hi] at hc
    rcases List.mem_cons.1 hc with rfl | hc
    · exact Or.inl ⟨hi, rfl⟩
    · exact Or.inr (hbody _ hc)
  · simp only [if_neg hi] at hc
    exact Or.inr (hbody _ hc)

theorem digit_of_mem_padded {w : Nat} {i : Int} (h : 0 ≤ i) {c : Char} (hc : c ∈ padded w i) :
    ∃ d < 10, c = digitChar d := by
  rcases mem_padded hc with ⟨hi, -⟩ | hd
  · omega
  · exact hd

theorem padded_ne_nil {w : Nat} {i : Int} (h : 0 ≤ i) : padded w i ≠ [] := by
  rw [padded_of_nonneg h]
  simp [digits_ne_nil]

theorem length_padded_le {w : Nat} {i : Int} (h : 0 ≤ i) (hw : w ≤ digitLimit)
    (hi : isTooLong i = false) : (padded w i).length ≤ digitLimit := by
  have := length_digits_le (by decide) (isTooLong_eq_false.1 hi)
  rw [padded_of_nonneg h, List.length_append, List.length_replicate]
  omega

theorem signedNumeral?_padded {w : Nat} {i : Int} (h : 0 ≤ i) :
    signedNumeral? (padded w i) = some i ∧ unsigned (padded w i) = padded w i := by
  have hread : natural? (padded w i) = some i.natAbs := by
    rw [padded_of_nonneg h, natural?_zeros_append _ (digits_ne_nil _) (not_mem_digits _).1,
      natural?_digits]
  obtain ⟨hsigned, hunsigned⟩ :=
    signedNumeral?_of_digits (padded_ne_nil h) fun c hc => digit_of_mem_padded (w := w) h hc
  rw [hread] at hsigned
  refine ⟨hsigned.trans ?_, hunsigned⟩
  show some (i.natAbs : Int) = some i
  rw [show (i.natAbs : Int) = i by omega]

theorem readInteger_padded {w : Nat} (hw : w ≤ digitLimit) {i j : Int} (h : 0 ≤ i) :
    readInteger (padded w i) = .ok j ↔ j = i ∧ isTooLong i = false := by
  have htrim : trimmed isNumeralBlank (padded w i) = padded w i := by
    refine trimmed_of_forall fun c hc => ?_
    obtain ⟨d, hd, rfl⟩ := digit_of_mem_padded h hc
    exact (digitChar_plain hd).2
  obtain ⟨hread, hsign⟩ := signedNumeral?_padded (w := w) h
  constructor
  · intro hj
    have hshort := not_tooLong_of_readInteger hj
    have hij := (readInteger_eq_ok.1 hj).1
    rw [htrim, hread, Option.some.injEq] at hij
    exact ⟨hij.symm, hij ▸ hshort⟩
  · rintro ⟨rfl, hshort⟩
    refine readInteger_eq_ok.2 ⟨by rw [htrim, hread], ?_⟩
    have hnat := (natural?_of_signedNumeral? hread).1
    rw [htrim, excess?_of_natural? hnat, hsign]
    exact Nat.le_trans List.countP_le_length (length_padded_le h hw hshort)

end Cashflow.Text

namespace Cashflow
open Cashflow.Text

/-! ## Pieces -/

theorem pieces_of_not_mem {a : List Char} (h : '-' ∉ a) : pieces a = [a] := by
  induction a with
  | nil => rfl
  | cons c a ih =>
    simp only [List.mem_cons, not_or] at h
    rw [pieces, if_neg (Ne.symm h.1), ih h.2]

theorem pieces_append {a : List Char} (h : '-' ∉ a) (r : List Char) :
    pieces (a ++ '-' :: r) = a :: pieces r := by
  induction a with
  | nil => rfl
  | cons c a ih =>
    simp only [List.mem_cons, not_or] at h
    rw [List.cons_append, pieces, if_neg (Ne.symm h.1), ih h.2]

theorem length_pieces (s : List Char) : (pieces s).length = s.count '-' + 1 := by
  induction s with
  | nil => rfl
  | cons c r ih =>
    unfold pieces
    split
    · rename_i hc
      rw [List.length_cons, ih, hc, List.count_cons_self]
    · rename_i hc
      rw [List.count_cons_of_ne hc, ← ih]
      cases hp : pieces r with
      | nil => exact absurd hp (pieces_ne_nil r)
      | cons p ps => rfl

theorem not_mem_of_mem_pieces {s p : List Char} (h : p ∈ pieces s) : '-' ∉ p := by
  induction s generalizing p with
  | nil =>
    obtain rfl := List.mem_singleton.1 h
    exact List.not_mem_nil
  | cons c r ih =>
    unfold pieces at h
    split at h
    · rcases List.mem_cons.1 h with rfl | h
      · exact List.not_mem_nil
      · exact ih h
    · rename_i hc
      split at h
      · rename_i hp
        exact absurd hp (pieces_ne_nil r)
      · rename_i q qs hp
        rcases List.mem_cons.1 h with rfl | h
        · simp only [List.mem_cons, not_or]
          exact ⟨Ne.symm hc, ih (hp ▸ List.mem_cons_self)⟩
        · exact ih (hp ▸ List.mem_cons_of_mem q h)

namespace Date

/-! ## Dates that read -/

theorem parse_eq_ok {t : String} {d : Date} :
    Date.parse t = .ok d ↔ ∃ y m rest,
      ((pieces (trimmed isBlank t.toList)).length = 2 ∨ (pieces (trimmed isBlank t.toList)).length = 3) ∧
        List.Forall₂ (fun p i => readInteger p = .ok i) (pieces (trimmed isBlank t.toList))
          (y :: m :: rest) ∧
        d = ⟨y, m, rest.head?.getD 1⟩ ∧ d.HasMonth := by
  unfold Date.parse
  generalize pieces (trimmed isBlank t.toList) = parts
  dsimp only
  constructor
  · intro h
    split at h
    · rename_i hlength
      split at h
      · rename_i y m rest hread
        split at h
        · rename_i hm
          cases h
          exact ⟨y, m, rest, hlength, mapM_eq_ok.1 hread, rfl, hm⟩
        · cases h
      · cases h
    · cases h
  · rintro ⟨y, m, rest, hlength, hread, rfl, hm⟩
    rw [if_pos hlength, mapM_eq_ok.2 hread]
    exact if_pos hm

theorem HasMonth.not_tooLong {d : Date} (h : d.HasMonth) : isTooLong d.month = false := by
  have hlimit : 12 < 10 ^ digitLimit :=
    Nat.lt_of_lt_of_le (by decide : 12 < 10 ^ 2) (Nat.pow_le_pow_right (by decide) (by decide))
  simp only [HasMonth] at h
  exact isTooLong_eq_false.2 (by omega)

/-- What a date needs to read back from its text. -/
structure IsPlain (d : Date) : Prop where
  year : 0 ≤ d.year
  month : d.HasMonth
  day : 0 ≤ d.day
  short : ∀ i ∈ [d.year, d.month, d.day], isTooLong i = false

theorem nonneg_of_readInteger {s : List Char} {i : Int} (hs : '-' ∉ s) (h : readInteger s = .ok i) :
    0 ≤ i := by
  have hsub : ∀ c ∈ trimmed isNumeralBlank s, c ∈ s := by
    intro c hc
    have hc := List.mem_reverse.1 ((List.dropWhile_sublist _).subset (List.mem_reverse.1 hc))
    exact (List.dropWhile_sublist _).subset hc
  by_contra hneg
  have := (natural?_of_signedNumeral? (readInteger_eq_ok.1 h).1).2 (Int.not_le.1 hneg)
  exact hs (hsub _ (List.mem_of_mem_head? this))

/-- Every date that is read from a text reads back from its own. -/
theorem isPlain_of_parse {t : String} {d : Date} (h : Date.parse t = .ok d) : d.IsPlain := by
  obtain ⟨y, m, rest, -, hread, rfl, hm⟩ := parse_eq_ok.1 h
  have hall : ∀ i ∈ y :: m :: rest, 0 ≤ i ∧ isTooLong i = false := by
    intro i hi
    obtain ⟨p, hp, hi⟩ := exists_of_forall₂ hread hi
    exact ⟨nonneg_of_readInteger (not_mem_of_mem_pieces hp) hi, not_tooLong_of_readInteger hi⟩
  have hday : 0 ≤ rest.head?.getD 1 ∧ isTooLong (rest.head?.getD 1) = false := by
    cases rest with
    | nil => exact ⟨by decide, isTooLong_eq_false.2 (Nat.one_lt_pow (by decide) (by decide))⟩
    | cons i rest => exact hall i (by simp)
  refine ⟨(hall y (by simp)).1, hm, hday.1, ?_⟩
  simpa using ⟨(hall y (by simp)).2, (hall m (by simp)).2, hday.2⟩

/-! ## Texts of dates -/

theorem count_padded (w : Nat) (i : Int) : (padded w i).count '-' = if i < 0 then 1 else 0 := by
  have hdigits : (digits i.natAbs).count '-' = 0 := List.count_eq_zero.2 (not_mem_digits _).2
  have hzeros : ∀ n, (List.replicate n '0').count '-' = 0 := fun n => by simp [List.count_replicate]
  unfold padded signed
  split <;> simp [List.count_append, hdigits, hzeros]

theorem dash_not_mem_padded {w : Nat} {i : Int} (h : 0 ≤ i) : '-' ∉ padded w i := by
  have hcount := count_padded w i
  rw [if_neg (Int.not_lt.2 h)] at hcount
  exact List.count_eq_zero.1 hcount

theorem isBlank_of_mem_padded {w : Nat} {i : Int} {c : Char} (hc : c ∈ padded w i) :
    isBlank c = false := by
  have hdigit : ∀ d < 10, isBlank (digitChar d) = false := by decide
  rcases mem_padded hc with ⟨-, rfl⟩ | ⟨d, hd, rfl⟩
  · decide
  · exact hdigit d hd

theorem isBlank_of_mem_dashed {p q : List Char} (hp : ∀ c ∈ p, isBlank c = false)
    (hq : ∀ c ∈ q, isBlank c = false) : ∀ c ∈ p ++ '-' :: q, isBlank c = false := by
  intro c hc
  simp only [List.mem_append, List.mem_cons] at hc
  rcases hc with hc | rfl | hc
  · exact hp c hc
  · decide
  · exact hq c hc

/-- There is nothing to trim around the text of a date. -/
theorem trimmed_text (d : Date) : trimmed isBlank d.text.toList =
    padded 4 d.year ++ '-' :: (padded 2 d.month ++ '-' :: padded 2 d.day) := by
  have hplain : ∀ w i, ∀ c ∈ padded w i, isBlank c = false := fun _ _ _ => isBlank_of_mem_padded
  have hchars : d.text.toList =
      padded 4 d.year ++ '-' :: (padded 2 d.month ++ '-' :: padded 2 d.day) := by
    rw [text, String.toList_ofList, List.append_assoc]
    rfl
  rw [hchars]
  exact trimmed_of_forall
    (isBlank_of_mem_dashed (hplain _ _) (isBlank_of_mem_dashed (hplain _ _) (hplain _ _)))

theorem pieces_text {d : Date} (hy : 0 ≤ d.year) (hm : 0 ≤ d.month) (hd : 0 ≤ d.day) :
    pieces (trimmed isBlank d.text.toList) = [padded 4 d.year, padded 2 d.month, padded 2 d.day] := by
  rw [trimmed_text, pieces_append (dash_not_mem_padded hy), pieces_append (dash_not_mem_padded hm),
    pieces_of_not_mem (dash_not_mem_padded hd)]

/-- A part below zero has a dash of its own, which is one too many. -/
theorem nonneg_of_length_pieces {d : Date}
    (h : (pieces (trimmed isBlank d.text.toList)).length ≤ 3) :
    0 ≤ d.year ∧ 0 ≤ d.month ∧ 0 ≤ d.day := by
  rw [length_pieces, trimmed_text] at h
  simp only [List.count_append, List.count_cons_self, count_padded] at h
  split at h <;> split at h <;> split at h <;> omega

/-- A date reads back from its text if it is plain, and no text of another date gives anything. -/
theorem parse_text_eq_ok {d e : Date} : Date.parse d.text = .ok e ↔ e = d ∧ d.IsPlain := by
  constructor
  · intro h
    have hplain := isPlain_of_parse h
    obtain ⟨y, m, rest, hlength, hread, he, -⟩ := parse_eq_ok.1 h
    -- Only now are the pieces known: a part below zero would have given a fourth.
    have hcount : (pieces (trimmed isBlank d.text.toList)).length ≤ 3 := by omega
    obtain ⟨hy, hm, hd⟩ := nonneg_of_length_pieces hcount
    rw [pieces_text hy hm hd] at hread
    simp only [List.forall₂_cons_left_iff, List.forall₂_nil_left_iff, List.cons.injEq] at hread
    obtain ⟨y, _, hy', ⟨m, _, hm', ⟨d', _, hd', rfl, rfl⟩, rfl⟩, rfl, rfl, rfl⟩ := hread
    obtain ⟨rfl, -⟩ := (readInteger_padded (by decide) hy).1 hy'
    obtain ⟨rfl, -⟩ := (readInteger_padded (by decide) hm).1 hm'
    obtain ⟨rfl, -⟩ := (readInteger_padded (by decide) hd).1 hd'
    have hed : e = d := he
    exact ⟨hed, hed ▸ hplain⟩
  · rintro ⟨rfl, hplain⟩
    have hm : 0 ≤ e.month := by
      have := hplain.month.1
      omega
    obtain ⟨hys, hms, hds⟩ : isTooLong e.year = false ∧ isTooLong e.month = false ∧
        isTooLong e.day = false := by simpa using hplain.short
    refine parse_eq_ok.2 ⟨e.year, e.month, [e.day], ?_⟩
    rw [pieces_text hplain.year hm hplain.day]
    refine ⟨Or.inr rfl, .cons ?_ (.cons ?_ (.cons ?_ .nil)), rfl, hplain.month⟩
    · exact (readInteger_padded (by decide) hplain.year).2 ⟨rfl, hys⟩
    · exact (readInteger_padded (by decide) hm).2 ⟨rfl, hms⟩
    · exact (readInteger_padded (by decide) hplain.day).2 ⟨rfl, hds⟩

/-! ## Keys of months -/

/-- A key is a text without a day, in which the year is not filled up. -/
theorem pieces_key {d : Date} (hy : 0 ≤ d.year) (hm : 0 ≤ d.month) :
    pieces (trimmed isBlank d.key.toList) = [padded 0 d.year, padded 2 d.month] := by
  have hplain : ∀ w i, ∀ c ∈ padded w i, isBlank c = false := fun _ _ _ => isBlank_of_mem_padded
  rw [toList_key, ← padded_zero,
    trimmed_of_forall (isBlank_of_mem_dashed (hplain _ _) (hplain _ _)),
    pieces_append (dash_not_mem_padded hy), pieces_of_not_mem (dash_not_mem_padded hm)]

/-- The key of a month reads back as its first day. -/
theorem parse_key {d : Date} (hy : 0 ≤ d.year) (hm : d.HasMonth) (hs : isTooLong d.year = false) :
    Date.parse d.key = .ok d.startOfMonth := by
  have hmonth : 0 ≤ d.month := by
    have := hm.1
    omega
  refine parse_eq_ok.2 ⟨d.year, d.month, [], ?_⟩
  rw [pieces_key hy hmonth]
  refine ⟨Or.inl rfl, .cons ?_ (.cons ?_ .nil), rfl, hm⟩
  · exact (readInteger_padded (by decide) hy).2 ⟨rfl, hs⟩
  · exact (readInteger_padded (by decide) hmonth).2 ⟨rfl, hm.not_tooLong⟩

/-- The year in front of a key, read under the limit of digits. -/
theorem keyYear_key {d : Date} (hy : 0 ≤ d.year) (hs : isTooLong d.year = false) :
    keyYear d.key = .ok d.year := by
  rw [keyYear, keyHead_key hy, ← padded_zero]
  exact (readInteger_padded (by decide) hy).2 ⟨rfl, hs⟩

end Date

end Cashflow

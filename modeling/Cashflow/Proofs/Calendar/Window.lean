import Mathlib.Logic.Function.Iterate
import Cashflow.Proofs.Calendar.MonthKey
import Cashflow.Proofs.Calendar.MonthLine

/-!
# The months of a window

A loop from the month of one date to that of another, by one month in each round, ends after `rounds`
rounds whatever the two dates are (`le_of_lt_rounds`, `lt_afterRounds_rounds`), and its window is the
list of the months that it comes to (`window_eq_afterRounds`). Only the first of them may be none of
the calendar.

Between calendar months a window is the run of places on the line of months from the first to the
last (`window_eq_months`, `mem_months`), in ascending order (`months_ascend`) and with a key of its own
for each (`nodup_keys`, `key_mem_keys_iff`), so that there are as many keys as months (`length_keys`).
The month of a date comes once in it, or not at all (`filter_sameMonth_months`).
-/

namespace Cashflow

namespace Date

/-! ## The rounds of a loop -/

/-- One round: a month later. -/
def next (d : Date) : Date := d.addMonths 1

/-- The month that a loop from `first` comes to after some rounds. -/
def afterRounds (first : Date) (n : Nat) : Date := next^[n] first.startOfMonth

/-- The place of the last calendar month that is not after `last`, which may have no month number of
the calendar. -/
def reach (last : Date) : Int := last.year * 12 + min (max last.month 0) 12 - 1

/-- How many rounds a loop from the month of `first` to that of `last` has. -/
def rounds (first last : Date) : Nat :=
  if last.startOfMonth < first.startOfMonth then 0 else (last.reach - first.index).toNat + 1

theorem monthsThrough_eq_iterate {a b : Date} {n : Nat} (hbefore : ∀ i < n, ¬ b < next^[i] a)
    (hafter : b < next^[n] a) : monthsThrough a b = (List.range n).map fun i => next^[i] a := by
  induction n generalizing a with
  | zero => exact (monthsThrough.eq_1 a b).trans (if_pos hafter)
  | succ n ih =>
    have hfirst : ¬ b < a := hbefore 0 (Nat.succ_pos n)
    have hrest := ih (fun i hi => hbefore (i + 1) (Nat.succ_lt_succ hi)) hafter
    rw [List.range_succ_eq_map, List.map_cons, List.map_map, monthsThrough, if_neg hfirst]
    exact congrArg (a :: ·) hrest

theorem afterRounds_succ (first : Date) (n : Nat) :
    first.afterRounds (n + 1) = first.startOfMonth.addMonths (n + 1) := by
  induction n with
  | zero => rfl
  | succ n ih =>
    rw [afterRounds, Function.iterate_succ_apply']
    exact (congrArg next ih).trans (addMonths_addMonths ..)

theorem le_startOfMonth_iff {a last : Date} (ha : a.HasMonth) (hd : a.day = 1) :
    a ≤ last.startOfMonth ↔ a.index ≤ last.reach := by
  simp only [HasMonth] at ha
  simp only [le_iff_not_lt, lt_iff, startOfMonth, index, reach]
  omega

section Rounds
variable {first last : Date}

theorem le_of_lt_rounds {i : Nat} (h : i < rounds first last) :
    first.afterRounds i ≤ last.startOfMonth := by
  rw [rounds] at h
  split at h
  · cases h
  · rename_i hle
    cases i with
    | zero => exact hle
    | succ i =>
      rw [afterRounds_succ, le_startOfMonth_iff (addMonths_month_range _ _) rfl, index_addMonths,
        index_startOfMonth]
      omega

theorem lt_afterRounds_rounds : last.startOfMonth < first.afterRounds (rounds first last) := by
  rw [rounds]
  split
  · assumption
  · rw [afterRounds_succ]
    refine Decidable.not_not.1 fun h => ?_
    rw [← le_iff_not_lt, le_startOfMonth_iff (addMonths_month_range _ _) rfl, index_addMonths,
      index_startOfMonth] at h
    omega

theorem window_eq_afterRounds :
    window first last = (List.range (rounds first last)).map first.afterRounds :=
  monthsThrough_eq_iterate (fun _ => le_of_lt_rounds) lt_afterRounds_rounds

variable (hf : first.HasMonth) (hl : last.HasMonth)
include hf hl

/-- Between calendar months the rounds are the difference of the months, the last included. -/
theorem rounds_eq_monthsBetween : rounds first last = monthsBetween first last := by
  have hlt := startOfMonth_le_iff hf hl
  simp only [HasMonth] at hl
  simp only [rounds, monthsBetween]
  split
  · rename_i h
    have := mt hlt.2 (not_not_intro h)
    simp only [index] at this
    omega
  · rename_i h
    have := hlt.1 h
    simp only [index, reach] at this ⊢
    omega

theorem window_eq_months : window first last = months first last := by
  rw [window_eq_afterRounds, rounds_eq_monthsBetween hf hl, months]
  refine List.map_congr_left fun i _ => ?_
  cases i with
  | zero => exact (addMonths_zero (d := first.startOfMonth) hf).symm
  | succ i => exact afterRounds_succ first i

end Rounds

section Months
variable {first last : Date}

theorem mem_months {d : Date} :
    d ∈ months first last ↔
      d.HasMonth ∧ d.day = 1 ∧ first.index ≤ d.index ∧ d.index ≤ last.index := by
  have hlast := coe_monthsBetween first last
  constructor
  · intro h
    obtain ⟨i, hi, rfl⟩ := List.mem_map.1 h
    rw [List.mem_range] at hi
    refine ⟨addMonths_month_range _ _, rfl, ?_⟩
    rw [index_addMonths, index_startOfMonth]
    omega
  · rintro ⟨hm, hd, hf, hl⟩
    refine List.mem_map.2 ⟨(d.index - first.index).toNat, List.mem_range.2 (by omega), ?_⟩
    have hi : first.index + ((d.index - first.index).toNat : Int) = d.index := by omega
    rw [addMonths, index_startOfMonth, hi, startOfMonth_day, ← hd, ofIndex_index hm]

theorem months_ascend : (months first last).Pairwise (· < ·) := by
  rw [months, List.pairwise_map]
  exact List.pairwise_lt_range.imp fun h => (addMonths_lt_iff _).2 (Int.ofNat_lt.2 h)

theorem nodup_months : (months first last).Nodup := months_ascend.imp ne_of_lt

theorem eq_startOfMonth_of_mem_months {d m : Date} (hm : m ∈ months first last)
    (h : m.sameMonth d = true) : m = d.startOfMonth := by
  have hday := (mem_months.1 hm).2.1
  simp only [sameMonth, Bool.and_eq_true, decide_eq_true_eq] at h
  simp only [startOfMonth, ← h.1, ← h.2, ← hday]

/-- The month of a date, if it lies in the window. -/
theorem filter_sameMonth_months {d : Date} (hd : d.HasMonth) :
    (months first last).filter (fun m => m.sameMonth d) =
      if first.index ≤ d.index ∧ d.index ≤ last.index then [d.startOfMonth] else [] := by
  have hsame : (months first last).filter (fun m => m.sameMonth d) =
      (months first last).filter (· == d.startOfMonth) := by
    refine List.filter_congr fun m hm => ?_
    rw [Bool.eq_iff_iff, beq_iff_eq]
    refine ⟨eq_startOfMonth_of_mem_months hm, ?_⟩
    rintro rfl
    simp [sameMonth]
  have hmem : d.startOfMonth ∈ months first last ↔
      first.index ≤ d.index ∧ d.index ≤ last.index := by
    rw [mem_months, index_startOfMonth]
    exact ⟨fun h => h.2.2, fun h => ⟨hd, rfl, h⟩⟩
  rw [hsame, List.filter_beq, nodup_months.count]
  by_cases h : d.startOfMonth ∈ months first last
  · rw [if_pos h, if_pos (hmem.1 h)]
    rfl
  · rw [if_neg h, if_neg (mt hmem.2 h)]
    rfl

theorem nodup_keys : (keys first last).Nodup := by
  rw [keys, List.Nodup, List.pairwise_map]
  refine months_ascend.imp_of_mem fun {a b} ha hb hab he => ?_
  obtain ⟨ha, hda, -⟩ := mem_months.1 ha
  obtain ⟨hb, hdb, -⟩ := mem_months.1 hb
  obtain ⟨hy, hm⟩ := key_inj ha hb he
  simp only [lt_iff] at hab
  omega

theorem length_keys : (keys first last).length = monthsBetween first last := by
  rw [keys, months, List.length_map, List.length_map, List.length_range]

theorem key_mem_keys_iff {d : Date} (hd : d.HasMonth) :
    d.key ∈ keys first last ↔ first.index ≤ d.index ∧ d.index ≤ last.index := by
  rw [keys, List.mem_map]
  constructor
  · rintro ⟨m, hm, he⟩
    obtain ⟨hmonth, -, hplace⟩ := mem_months.1 hm
    obtain ⟨hy, hm'⟩ := key_inj hmonth hd he
    have hindex : m.index = d.index := by rw [index, index, hy, hm']
    rwa [← hindex]
  · exact fun h => ⟨d.startOfMonth, mem_months.2 ⟨hd, rfl, h⟩, rfl⟩

theorem keys_eq_nil (hf : first.HasMonth) (hl : last.HasMonth)
    (h : last.startOfMonth < first.startOfMonth) : keys first last = [] := by
  have hrounds : rounds first last = 0 := if_pos h
  rw [keys, ← window_eq_months hf hl, window_eq_afterRounds, hrounds]
  rfl

theorem index_ascend_months : (months first last).Pairwise fun m n => m.index < n.index := by
  refine months_ascend.imp_of_mem fun {a b} ha hb hab => ?_
  obtain ⟨ha, hda, -⟩ := mem_months.1 ha
  obtain ⟨hb, hdb, -⟩ := mem_months.1 hb
  exact (lt_iff_index_lt ha hb (hda.trans hdb.symm)).1 hab

theorem year_le_of_mem_months (hf : first.HasMonth) {d : Date} (h : d ∈ months first last) :
    first.year ≤ d.year := by
  obtain ⟨hd, -, hi, -⟩ := mem_months.1 h
  simp only [HasMonth] at hd hf
  simp only [index] at hi
  omega

theorem le_year_of_mem_months (hl : last.HasMonth) {d : Date} (h : d ∈ months first last) :
    d.year ≤ last.year := by
  obtain ⟨hd, -, -, hi⟩ := mem_months.1 h
  simp only [HasMonth] at hd hl
  simp only [index] at hi
  omega

end Months

end Date

end Cashflow

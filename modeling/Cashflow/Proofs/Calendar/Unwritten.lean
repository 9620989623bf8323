import Cashflow.Proofs.Calendar.Window

/-!
# Windows that are not written

A run knows beforehand whether its window has a month whose year is too long to be written
(`Date.reachesUnwritten`), and which months come before it (`Date.monthsBeforeUnwritten`). Both say
what a loop through the window would meet: some month of it is not written
(`reachesUnwritten_iff`), and these are the months up to the first such month
(`monthsBeforeUnwritten_eq`). This holds for any two dates, so the first month of the window may lie
in a year before or after the one that its month number would give it.

The months of a window by the calendar have their keys, unless the first or the last of them is not
written (`writtenKeys?_eq`).
-/

namespace Cashflow
open Cashflow.Text

namespace Date

theorem le_lastYear : 2999 ≤ lastYear := by
  have hpow : ∀ n, 4 ≤ n → 10 ^ 4 ≤ Nat.pow 10 n := fun _ => Nat.pow_le_pow_right (by decide)
  have hlimit := hpow digitLimit (by decide)
  unfold lastYear
  generalize Nat.pow 10 digitLimit = n at hlimit ⊢
  omega

theorem isUnwritten_iff {d : Date} : d.isUnwritten = true ↔ lastYear < d.year.natAbs :=
  decide_eq_true_iff

theorem not_isUnwritten_iff {d : Date} : d.isUnwritten = false ↔ (d.year.natAbs : Int) ≤ lastYear :=
  decide_eq_false_iff_not.trans Int.not_lt

theorem isUnwritten_eq_isTooLong (d : Date) : d.isUnwritten = isTooLong d.year := by
  have hpow : ∀ n, 0 < Nat.pow 10 n := fun _ => Nat.pow_pos (by decide)
  have hlimit := hpow digitLimit
  rw [isUnwritten, isTooLong, decide_eq_decide, lastYear]
  omega

theorem year_afterRounds_succ (first : Date) (i : Nat) :
    (first.afterRounds (i + 1)).year = (first.index + (i + 1)) / 12 := by
  rw [afterRounds_succ]
  rfl

/-- The first month of all that are too late to be written. -/
theorem lateMonth_le_iff {last : Date} :
    (⟨lastYear + 1, 1, 1⟩ : Date) ≤ last.startOfMonth ↔ (lastYear + 1) * 12 ≤ last.reach := by
  rw [le_startOfMonth_iff ⟨Int.le_refl 1, by decide⟩ rfl, index]
  simp

section Windows
variable {first last : Date}

theorem mem_window_iff {m : Date} :
    m ∈ window first last ↔ ∃ i < rounds first last, first.afterRounds i = m := by
  simp only [window_eq_afterRounds, List.mem_map, List.mem_range]

theorem rounds_of_le (h : first.startOfMonth ≤ last.startOfMonth) :
    rounds first last = (last.reach - first.index).toNat + 1 :=
  if_neg h

/-- From the second month on a loop goes from one calendar month to the next, so it cannot leave the
years that are written but by passing the last of them. -/
theorem exists_unwritten_later_iff (h : first.startOfMonth ≤ last.startOfMonth) :
    (∃ i, i + 1 < rounds first last ∧ (first.afterRounds (i + 1)).isUnwritten = true) ↔
      first.afterRounds 1 ≤ last.startOfMonth ∧ ((first.afterRounds 1).isUnwritten = true ∨
        (⟨lastYear + 1, 1, 1⟩ : Date) ≤ last.startOfMonth) := by
  have hL := le_lastYear
  have hsecond : first.afterRounds 1 ≤ last.startOfMonth ↔ first.index + 1 ≤ last.reach := by
    rw [afterRounds_succ, le_startOfMonth_iff (addMonths_month_range _ _) rfl, index_addMonths,
      index_startOfMonth]
    rfl
  simp only [hsecond, lateMonth_le_iff, isUnwritten_iff, year_afterRounds_succ, rounds_of_le h]
  generalize lastYear = L at hL ⊢
  constructor
  · rintro ⟨i, hi, hyear⟩
    omega
  · rintro ⟨hle, hyear | hlate⟩
    · exact ⟨0, by omega, hyear⟩
    · by_cases hyear : L < ((first.index + (0 + 1)) / 12).natAbs
      · exact ⟨0, by omega, hyear⟩
      · exact ⟨((L + 1) * 12 - first.index - 1).toNat, by omega, by omega⟩

theorem reachesUnwritten_iff :
    reachesUnwritten first last = true ↔ ∃ m ∈ window first last, m.isUnwritten = true := by
  by_cases h : first.startOfMonth ≤ last.startOfMonth
  · have hpos : 0 < rounds first last := rounds_of_le h ▸ Nat.succ_pos _
    have hlater := exists_unwritten_later_iff h
    simp only [reachesUnwritten, Bool.and_eq_true, Bool.or_eq_true, decide_eq_true_eq]
    constructor
    · rintro ⟨-, hfirst | hrest⟩
      · exact ⟨_, mem_window_iff.2 ⟨0, hpos, rfl⟩, hfirst⟩
      · obtain ⟨i, hi, hm⟩ := hlater.2 hrest
        exact ⟨_, mem_window_iff.2 ⟨_, hi, rfl⟩, hm⟩
    · rintro ⟨m, hm, hunwritten⟩
      obtain ⟨i, hi, rfl⟩ := mem_window_iff.1 hm
      cases i with
      | zero => exact ⟨h, Or.inl hunwritten⟩
      | succ i => exact ⟨h, Or.inr (hlater.1 ⟨i, hi, hunwritten⟩)⟩
  · have hnone : window first last = [] := by
      rw [window_eq_afterRounds, rounds, if_pos (Decidable.not_not.1 h)]
      rfl
    simp [reachesUnwritten, h, hnone]

theorem isUnwritten_of_mem_window (h : reachesUnwritten first last = false) {m : Date}
    (hm : m ∈ window first last) : m.isUnwritten = false := by
  cases hunwritten : m.isUnwritten with
  | false => rfl
  | true => exact absurd (reachesUnwritten_iff.2 ⟨m, hm, hunwritten⟩) (by simp [h])

theorem isUnwritten_of_mem_months (hf : first.HasMonth) (hl : last.HasMonth)
    (h : reachesUnwritten first last = false) {m : Date} (hm : m ∈ months first last) :
    m.isUnwritten = false := by
  rw [← window_eq_months hf hl] at hm
  exact isUnwritten_of_mem_window h hm

/-- A list of months from a loop, up to the first that is not written. -/
theorem takeWhile_afterRounds {n k : Nat} (hn : n < k)
    (hbefore : ∀ i < n, (first.afterRounds i).isUnwritten = false)
    (hat : (first.afterRounds n).isUnwritten = true) :
    ((List.range k).map first.afterRounds).takeWhile (fun m => !m.isUnwritten) =
      (List.range n).map first.afterRounds := by
  obtain ⟨j, rfl⟩ : ∃ j, k = n + (j + 1) := ⟨k - n - 1, by omega⟩
  rw [List.range_add, List.map_append, List.takeWhile_append_of_pos, List.range_succ_eq_map,
    List.map_cons, List.map_cons, List.takeWhile_cons_of_neg, List.append_nil]
  · simpa using hat
  · intro m hm
    obtain ⟨i, hi, rfl⟩ := List.mem_map.1 hm
    simpa using hbefore i (List.mem_range.1 hi)

/-- A loop whose first two months are written and that reaches a year too late for that comes to the
end of the last year that is written, and then to a month that is not. -/
theorem rounds_lastYear (hfirst : first.isUnwritten = false)
    (hsecond : (first.afterRounds 1).isUnwritten = false)
    (hle : first.startOfMonth ≤ last.startOfMonth) (hlate : (lastYear + 1) * 12 ≤ last.reach) :
    rounds first ⟨lastYear, 12, 1⟩ < rounds first last ∧
      (∀ i < rounds first ⟨lastYear, 12, 1⟩, (first.afterRounds i).isUnwritten = false) ∧
      (first.afterRounds (rounds first ⟨lastYear, 12, 1⟩)).isUnwritten = true := by
  have hL := le_lastYear
  rw [not_isUnwritten_iff] at hfirst
  rw [not_isUnwritten_iff, year_afterRounds_succ] at hsecond
  have hstart : first.startOfMonth ≤ (⟨lastYear, 12, 1⟩ : Date).startOfMonth := by
    simp only [le_iff_not_lt, lt_iff, startOfMonth]
    simp only [index] at hsecond
    omega
  have hreach : (⟨lastYear, 12, 1⟩ : Date).reach = lastYear * 12 + 11 := by
    simp only [reach]
    omega
  rw [rounds_of_le hstart, rounds_of_le hle, hreach]
  refine ⟨by omega, fun i hi => ?_, ?_⟩
  · rw [not_isUnwritten_iff]
    cases i with
    | zero => exact hfirst
    | succ i =>
      rw [year_afterRounds_succ]
      omega
  · rw [isUnwritten_iff, year_afterRounds_succ]
    omega

theorem monthsBeforeUnwritten_eq (h : reachesUnwritten first last = true) :
    monthsBeforeUnwritten first = (window first last).takeWhile fun m => !m.isUnwritten := by
  simp only [reachesUnwritten, Bool.and_eq_true, Bool.or_eq_true, decide_eq_true_eq] at h
  obtain ⟨hle, hreaches⟩ := h
  have hrounds := rounds_of_le hle
  rw [window_eq_afterRounds, monthsBeforeUnwritten]
  cases hfirst : first.isUnwritten with
  | true =>
    have hnone : ∀ i < 0, (first.afterRounds i).isUnwritten = false := fun i hi =>
      absurd hi (Nat.not_lt_zero i)
    exact (takeWhile_afterRounds (by omega) hnone hfirst).symm
  | false =>
    obtain ⟨hnext, hlate⟩ := hreaches.resolve_left (Bool.eq_false_iff.1 hfirst)
    cases hsecond : (first.startOfMonth.addMonths 1).isUnwritten with
    | true =>
      have hone : ∀ i < 1, (first.afterRounds i).isUnwritten = false := fun i hi =>
        Nat.lt_one_iff.1 hi ▸ hfirst
      rw [le_startOfMonth_iff (addMonths_month_range _ _) rfl, index_addMonths,
        index_startOfMonth] at hnext
      exact (takeWhile_afterRounds (by omega) hone hsecond).symm
    | false =>
      have hlate' := lateMonth_le_iff.1 (hlate.resolve_left (Bool.eq_false_iff.1 hsecond))
      obtain ⟨hlt, hbefore, hat⟩ := rounds_lastYear hfirst hsecond hle hlate'
      rw [takeWhile_afterRounds hlt hbefore hat, ← window_eq_afterRounds]
      rfl

end Windows

/-! ## Keys of a window -/

/-- Years go up along a window, so the years at its ends are the longest. -/
theorem any_isUnwritten_months (first last : Date) :
    (months first last).any isUnwritten = true ↔
      0 < monthsBetween first last ∧
        ((first.startOfMonth.addMonths 0).isUnwritten = true ∨
          (first.startOfMonth.addMonths (monthsBetween first last - 1)).isUnwritten = true) := by
  have hyear : ∀ i, (first.startOfMonth.addMonths i).year = (first.index + i) / 12 := fun _ => rfl
  simp only [months, List.any_map, List.any_eq_true, List.mem_range, Function.comp_apply,
    isUnwritten_iff, hyear]
  generalize lastYear = L
  constructor
  · rintro ⟨i, hi, h⟩
    omega
  · rintro ⟨hcount, h | h⟩
    · exact ⟨0, hcount, h⟩
    · exact ⟨monthsBetween first last - 1, by omega, by rwa [Int.ofNat_sub hcount]⟩

theorem writtenKeys?_eq (first last : Date) :
    writtenKeys? first last =
      if (months first last).any isUnwritten then none else some (keys first last) := by
  simp only [any_isUnwritten_months, writtenKeys?]

end Date

end Cashflow

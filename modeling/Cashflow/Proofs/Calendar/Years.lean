import Mathlib.Logic.Relator
import Cashflow.Proofs.Calendar.Unwritten

/-!
# Months moved by years

Moving dates by whole years changes neither their order nor the months between them, so a window
moves month by month (`window_addYears`). The key of a month changes with its year, and may change
its length; but months from the year zero on and their keys go together one to one, before the move
and after it (`biUnique_movedKey`).
-/

namespace Cashflow
open Cashflow.Text

namespace Date

/-- The same day and month, a number of years later, or earlier if it is negative. -/
def addYears (k : Int) (d : Date) : Date := { d with year := d.year + k }

section Dates
variable (k : Int) (a b : Date)

theorem addYears_lt_iff : a.addYears k < b.addYears k ↔ a < b := by
  simp only [lt_iff, addYears]
  omega

theorem addYears_le_iff : a.addYears k ≤ b.addYears k ↔ a ≤ b :=
  not_congr (addYears_lt_iff k b a)

theorem sameMonth_addYears : (a.addYears k).sameMonth (b.addYears k) = a.sameMonth b := by
  have hyear : a.year + k = b.year + k ↔ a.year = b.year := by omega
  exact congrArg (· && decide (a.month = b.month)) (decide_eq_decide.2 hyear)

theorem addMonths_addYears (n : Int) : (a.addYears k).addMonths n = (a.addMonths n).addYears k := by
  have hindex : (a.addYears k).index = a.index + 12 * k := by
    simp only [index, addYears]
    omega
  have hyear : (a.index + 12 * k + n) / 12 = (a.index + n) / 12 + k := by omega
  have hmonth : (a.index + 12 * k + n) % 12 = (a.index + n) % 12 := by omega
  rw [addMonths, addMonths, hindex, ofIndex, ofIndex, hyear, hmonth]
  rfl

theorem monthsThrough_addYears :
    monthsThrough (a.addYears k) (b.addYears k) = (monthsThrough a b).map (addYears k) := by
  fun_induction monthsThrough a b with
  | case1 a h => rw [monthsThrough, if_pos ((addYears_lt_iff k b a).2 h), List.map_nil]
  | case2 a h ih =>
    rw [monthsThrough, if_neg (mt (addYears_lt_iff k b a).1 h), addMonths_addYears, ih,
      List.map_cons]

theorem window_addYears :
    window (a.addYears k) (b.addYears k) = (window a b).map (addYears k) :=
  monthsThrough_addYears k a.startOfMonth b.startOfMonth

end Dates

/-! ## Years with a far future

An absent end of a range stands for a month of the year 2999, which does not move. -/

/-- A month of the years from 0 to 2999, and still one when it is moved. -/
structure Movable (k : Int) (m : Date) : Prop where
  hasMonth : m.HasMonth
  nonneg : 0 ≤ m.year
  le : m.year ≤ 2999
  moved_nonneg : 0 ≤ m.year + k
  moved_le : m.year + k ≤ 2999

theorem startOfMonth_le_farFuture {m : Date} (hm : m.HasMonth) (h : m.year ≤ 2999) :
    m.startOfMonth ≤ farFuture := by
  simp only [HasMonth] at hm
  simp only [le_iff_not_lt, lt_iff, startOfMonth, farFuture]
  omega

theorem year_le_of_le {a b : Date} (h : a ≤ b) : a.year ≤ b.year := by
  simp only [le_iff_not_lt, lt_iff] at h
  omega

theorem isUnwritten_eq_false {m : Date} (hy : 0 ≤ m.year) (h : m.year ≤ 2999) :
    m.isUnwritten = false := by
  have hlast := le_lastYear
  exact decide_eq_false (by omega)

/-- All months of a window are written when its years are from 0 to 2999. -/
theorem reachesUnwritten_eq_false {first last : Date} (hf : first.HasMonth) (hy : 0 ≤ first.year)
    (h : last.year ≤ 2999) : reachesUnwritten first last = false := by
  rw [Bool.eq_false_iff]
  intro hreaches
  obtain ⟨m, hm, hunwritten⟩ := reachesUnwritten_iff.1 hreaches
  obtain ⟨i, hi, rfl⟩ := mem_window_iff.1 hm
  have hto := Int.le_trans (year_le_of_le (le_of_lt_rounds hi)) h
  have hfrom : 0 ≤ (first.afterRounds i).year := by
    cases i with
    | zero => exact hy
    | succ i =>
      simp only [HasMonth] at hf
      rw [year_afterRounds_succ, index]
      omega
  rw [isUnwritten_eq_false hfrom hto] at hunwritten
  cases hunwritten

section Windows
variable {k : Int} {first last : Date} (hf : first.HasMonth) (hl : last.HasMonth)
  (hy : 0 ≤ first.year) (hy' : last.year ≤ 2999) (hk : 0 ≤ first.year + k)
  (hk' : last.year + k ≤ 2999)
include hf hl hy hy' hk hk'

theorem movable_of_mem_window {m : Date} (hm : m ∈ window first last) : m.Movable k := by
  rw [window_eq_months hf hl] at hm
  have hfrom := year_le_of_mem_months hf hm
  obtain ⟨hmonth, -, -, hto⟩ := mem_months.1 hm
  have hthrough : m.year ≤ last.year := by
    simp only [HasMonth] at hmonth hl
    simp only [index] at hto
    omega
  exact ⟨hmonth, by omega, by omega, by omega, by omega⟩

end Windows

/-! ## Keys -/

/-- The key of a month, and that of the month when it is moved. -/
def MovedKey (k : Int) (a a' : String) : Prop :=
  ∃ m : Date, m.Movable k ∧ a = m.key ∧ a' = (m.addYears k).key

theorem Movable.movedKey {k : Int} {m : Date} (h : m.Movable k) :
    MovedKey k m.key (m.addYears k).key := ⟨m, h, rfl, rfl⟩

theorem biUnique_movedKey (k : Int) : Relator.BiUnique (MovedKey k) := by
  constructor
  · rintro _ _ _ ⟨m, hm, rfl, rfl⟩ ⟨n, hn, rfl, he⟩
    obtain ⟨hyear, hmonth⟩ :=
      key_inj (a := m.addYears k) (b := n.addYears k) hm.hasMonth hn.hasMonth he
    exact key_eq_of ((Int.add_left_inj k).1 hyear) hmonth
  · rintro _ _ _ ⟨m, hm, rfl, rfl⟩ ⟨n, hn, he, rfl⟩
    obtain ⟨hyear, hmonth⟩ := key_inj hm.hasMonth hn.hasMonth he
    exact key_eq_of (congrArg (· + k) hyear) hmonth

/-- The years of keys that go together, read back. -/
theorem MovedKey.years {k : Int} {a a' : String} (h : MovedKey k a a') :
    ∃ y, keyYear? a = some y ∧ keyYear? a' = some (y + k) := by
  obtain ⟨m, hm, rfl, rfl⟩ := h
  exact ⟨m.year, keyYear?_key hm.nonneg, keyYear?_key (d := m.addYears k) hm.moved_nonneg⟩

end Date

end Cashflow

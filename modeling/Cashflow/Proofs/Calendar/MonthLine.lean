import Cashflow.Calendar.Date

/-!
# The line of months

* the order of dates, and that of months by their places on the line (`startOfMonth_le_iff`);
* moves by a number of months, which add up (`addMonths_addMonths`), go with the first day of the
  month (`startOfMonth_addMonths`) and keep the order (`addMonths_lt_iff`);
* the months of a window, which count a move and undo it (`monthsBetween_addMonths`,
  `addMonths_monthsBetween`).

All of it is for moves in both directions and for years on both sides of the year zero. Together it
says that the whole numbers act on dates and that this keeps their order (`addMonths_action`).
-/

namespace Cashflow

namespace Date

/-! ## Order -/

theorem le_of_lt {a b : Date} (h : a < b) : a ≤ b := by
  simp only [le_iff_not_lt, lt_iff] at h ⊢
  omega

theorem le_refl (a : Date) : a ≤ a := by
  simp only [le_iff_not_lt, lt_iff]
  omega

theorem ne_of_lt {a b : Date} (h : a < b) : a ≠ b := by
  rintro rfl
  exact le_refl a h

theorem startOfMonth_le_iff {a b : Date} (ha : a.HasMonth) (hb : b.HasMonth) :
    a.startOfMonth ≤ b.startOfMonth ↔ a.index ≤ b.index := by
  have h : b.startOfMonth < a.startOfMonth ↔ b.index < a.index :=
    lt_iff_index_lt (a := b.startOfMonth) (b := a.startOfMonth) hb ha rfl
  rw [le_iff_not_lt, h, Int.not_lt]

/-! ## Moves -/

theorem addMonths_zero {d : Date} (h : d.HasMonth) : d.addMonths 0 = d := by
  rw [addMonths, Int.add_zero, ofIndex_index h]

theorem addMonths_addMonths (d : Date) (m n : Int) :
    (d.addMonths m).addMonths n = d.addMonths (m + n) := by
  rw [addMonths, index_addMonths, addMonths_day, Int.add_assoc, addMonths]

theorem startOfMonth_addMonths (d : Date) (n : Int) :
    (d.addMonths n).startOfMonth = d.startOfMonth.addMonths n := rfl

theorem addMonths_lt_iff (d : Date) {m n : Int} : d.addMonths m < d.addMonths n ↔ m < n := by
  rw [lt_iff_index_lt (addMonths_month_range d m) (addMonths_month_range d n) rfl, index_addMonths,
    index_addMonths, Int.add_lt_add_iff_left]

/-! ## Months of a window -/

theorem coe_monthsBetween (a b : Date) :
    (monthsBetween a b : Int) = max (b.index - a.index + 1) 0 := by
  simp only [monthsBetween, index]
  omega

theorem monthsBetween_addMonths (d : Date) (n : Int) :
    (monthsBetween d (d.addMonths n) : Int) = max (n + 1) 0 := by
  rw [coe_monthsBetween, index_addMonths]
  omega

/-- The last month of a window is reached from the first by one move less than it has months. -/
theorem addMonths_monthsBetween {s t : Date} (ht : t.HasMonth) (h : s.index ≤ t.index) :
    s.startOfMonth.addMonths (monthsBetween s t - 1) = t.startOfMonth := by
  have hplace : s.index + ((monthsBetween s t : Int) - 1) = t.index := by
    rw [coe_monthsBetween]
    omega
  rw [addMonths, index_startOfMonth, hplace]
  exact ofIndex_index (d := t.startOfMonth) ht

/-- Moving by months is an action of the whole numbers on dates, which keeps the day and lands on
calendar months. It commutes with going to the first day of a month, where longer moves lead to later
dates, and the window up to the end of a move has one month more than the move. Between calendar
months nothing moves by zero, and the months of a window lead from its first month to its last. -/
theorem addMonths_action :
    (∀ (d : Date) (m n : Int),
      (d.addMonths m).addMonths n = d.addMonths (m + n) ∧
      (d.addMonths n).HasMonth ∧ (d.addMonths n).day = d.day ∧
      (d.addMonths n).startOfMonth = d.startOfMonth.addMonths n ∧
      (d.startOfMonth.addMonths n < d.startOfMonth.addMonths m ↔ n < m) ∧
      (monthsBetween d (d.addMonths n) : Int) = max (n + 1) 0) ∧
    ∀ s t : Date, s.HasMonth → t.HasMonth →
      s.addMonths 0 = s ∧
      (s.startOfMonth ≤ t.startOfMonth →
        s.startOfMonth.addMonths (monthsBetween s t - 1) = t.startOfMonth) := by
  constructor
  · intro d m n
    exact ⟨addMonths_addMonths d m n, addMonths_month_range d n, addMonths_day d n,
      startOfMonth_addMonths d n, addMonths_lt_iff d.startOfMonth, monthsBetween_addMonths d n⟩
  · intro s t hs ht
    refine ⟨addMonths_zero hs, fun h => ?_⟩
    exact addMonths_monthsBetween ht ((startOfMonth_le_iff hs ht).1 h)

/-- From the end of the year before zero to the beginning of the year after it. -/
theorem addMonths_action_yearZero :
    HasMonth ⟨-1, 12, 31⟩ ∧ HasMonth ⟨1, 1, 15⟩ ∧
    startOfMonth ⟨-1, 12, 31⟩ ≤ startOfMonth ⟨1, 1, 15⟩ ∧
    monthsBetween ⟨-1, 12, 31⟩ ⟨1, 1, 15⟩ = 14 ∧
    addMonths ⟨-1, 12, 1⟩ 13 = ⟨1, 1, 1⟩ ∧ addMonths ⟨-1, 12, 31⟩ 0 = ⟨-1, 12, 31⟩ := by
  have hs : HasMonth ⟨-1, 12, 31⟩ := by decide
  have ht : HasMonth ⟨1, 1, 15⟩ := by decide
  have hle : startOfMonth ⟨-1, 12, 31⟩ ≤ startOfMonth ⟨1, 1, 15⟩ := by decide
  have hcount : monthsBetween ⟨-1, 12, 31⟩ ⟨1, 1, 15⟩ = 14 := by decide
  obtain ⟨hzero, hlast⟩ := addMonths_action.2 _ _ hs ht
  exact ⟨hs, ht, hle, hcount, hlast hle, hzero⟩

end Date

end Cashflow

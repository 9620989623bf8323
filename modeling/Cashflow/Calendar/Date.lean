/-!
# Dates at month resolution

A date is a year, a month number and a day, without a time zone. None of the three is checked: a day
is carried through month arithmetic unchanged, so `2025-02-31` exists, and it orders and keys like
any other. The order is by year, then month, then day.

Months form a line: `index` counts them from the start of year zero, and `addMonths` moves along it
(`index_addMonths`), always landing on a month number from 1 to 12 (`addMonths_month_range`).
-/

namespace Cashflow

structure Date where
  year : Int
  month : Int
  day : Int := 1
deriving DecidableEq

namespace Date

instance : LT Date where
  lt a b := a.year < b.year ∨ a.year = b.year ∧
    (a.month < b.month ∨ a.month = b.month ∧ a.day < b.day)

instance : LE Date where
  le a b := ¬ b < a

theorem lt_iff {a b : Date} : a < b ↔ a.year < b.year ∨ a.year = b.year ∧
    (a.month < b.month ∨ a.month = b.month ∧ a.day < b.day) := Iff.rfl

theorem le_iff_not_lt {a b : Date} : a ≤ b ↔ ¬ b < a := Iff.rfl

instance : DecidableLT Date := fun a b => decidable_of_iff' _ (lt_iff (a := a) (b := b))

instance : DecidableLE Date := fun a b => inferInstanceAs (Decidable (¬ b < a))

def startOfMonth (d : Date) : Date := { d with day := 1 }

def sameMonth (a b : Date) : Bool := decide (a.year = b.year) && decide (a.month = b.month)

/-- Both bounds included. -/
def within (d first last : Date) : Bool := decide (first ≤ d) && decide (d ≤ last)

/-! ## Months on a line -/

def index (d : Date) : Int := d.year * 12 + (d.month - 1)

/-- The month at a place of the line, with a day. -/
def ofIndex (i day : Int) : Date := ⟨i / 12, i % 12 + 1, day⟩

/-- Moves by a number of months, which may be negative; the day stays. -/
def addMonths (d : Date) (n : Int) : Date := ofIndex (d.index + n) d.day

/-- The months of the window from `a` to `b`, both included; none when `b` lies in a month before
that of `a`. -/
def monthsBetween (a b : Date) : Nat := ((b.year - a.year) * 12 + (b.month - a.month) + 1).toNat

/-- A month number of the calendar. -/
def HasMonth (d : Date) : Prop := 1 ≤ d.month ∧ d.month ≤ 12

instance (d : Date) : Decidable d.HasMonth := inferInstanceAs (Decidable (_ ∧ _))

@[simp] theorem startOfMonth_year (d : Date) : d.startOfMonth.year = d.year := rfl

@[simp] theorem startOfMonth_month (d : Date) : d.startOfMonth.month = d.month := rfl

@[simp] theorem startOfMonth_day (d : Date) : d.startOfMonth.day = 1 := rfl

@[simp] theorem index_startOfMonth (d : Date) : d.startOfMonth.index = d.index := rfl

@[simp] theorem index_ofIndex (i day : Int) : (ofIndex i day).index = i := by
  simp only [index, ofIndex]; omega

@[simp] theorem index_addMonths (d : Date) (n : Int) : (d.addMonths n).index = d.index + n := by
  simp [addMonths]

@[simp] theorem addMonths_day (d : Date) (n : Int) : (d.addMonths n).day = d.day := rfl

theorem addMonths_month_range (d : Date) (n : Int) : (d.addMonths n).HasMonth := by
  simp only [HasMonth, addMonths, ofIndex]; omega

theorem ofIndex_index {d : Date} (h : d.HasMonth) : ofIndex d.index d.day = d := by
  have hy : d.index / 12 = d.year := by simp only [HasMonth] at h; simp only [index]; omega
  have hm : d.index % 12 + 1 = d.month := by simp only [HasMonth] at h; simp only [index]; omega
  simp only [ofIndex, hy, hm]

/-- Among calendar months the order of the line is the order of dates. -/
theorem lt_iff_index_lt {a b : Date} (ha : a.HasMonth) (hb : b.HasMonth) (hd : a.day = b.day) :
    a < b ↔ a.index < b.index := by
  simp only [HasMonth] at ha hb
  simp only [lt_iff, index]
  omega

/-! ## The window, month by month -/

theorem window_step {a b : Date} (h : ¬ b < a) :
    Prod.Lex (· < ·) (· < ·)
      ((if (a.addMonths 1).HasMonth then 0 else 1 : Nat),
        (b.year * 12 + 12 - (a.addMonths 1).index).toNat)
      ((if a.HasMonth then 0 else 1 : Nat), (b.year * 12 + 12 - a.index).toNat) := by
  rw [if_pos (addMonths_month_range a 1), index_addMonths]
  by_cases ha : a.HasMonth
  · rw [if_pos ha]
    apply Prod.Lex.right
    simp only [HasMonth] at ha
    simp only [lt_iff, index] at h ⊢
    omega
  · rw [if_neg ha]
    exact Prod.Lex.left _ _ (by decide)

/-- From `a`, one month at a time, as long as `b` is not passed. The first step lands on a calendar
month, and from there each step comes one month closer to the end of the last year. -/
def monthsThrough (a b : Date) : List Date :=
  if b < a then [] else a :: monthsThrough (a.addMonths 1) b
termination_by
  ((if a.HasMonth then 0 else 1 : Nat), (b.year * 12 + 12 - a.index).toNat)
decreasing_by exact window_step ‹_›

/-- The months evaluated from `first` to `last`, both included. -/
def window (first last : Date) : List Date :=
  monthsThrough first.startOfMonth last.startOfMonth

/-- Carries a state from `a` month by month through `b`, or up to the first fault. -/
def foldThrough {ε σ : Type} (f : σ → Date → Except ε σ) (s : σ) (a b : Date) : Except ε σ :=
  if b < a then .ok s
  else match f s a with
    | .ok s => foldThrough f s (a.addMonths 1) b
    | .error e => .error e
termination_by
  ((if a.HasMonth then 0 else 1 : Nat), (b.year * 12 + 12 - a.index).toNat)
decreasing_by exact window_step ‹_›

theorem foldThrough_eq {ε σ : Type} (f : σ → Date → Except ε σ) (s : σ) (a b : Date) :
    foldThrough f s a b = (monthsThrough a b).foldlM f s := by
  fun_induction foldThrough f s a b with
  | case1 s a h => rw [monthsThrough, if_pos h]; rfl
  | case2 s a h t hf ih => rw [monthsThrough, if_neg h, List.foldlM_cons, hf]; exact ih
  | case3 s a h e hf => rw [monthsThrough, if_neg h, List.foldlM_cons, hf]; rfl

/-- The bound that stands in for an absent end. -/
def farFuture : Date := ⟨2999, 12, 1⟩

end Date

end Cashflow

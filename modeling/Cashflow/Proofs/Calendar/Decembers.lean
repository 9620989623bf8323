import Cashflow.Proofs.Calendar.Years

/-!
# Decembers of a window

The months in which the years of a window end (`Date.decembers`), each in a year of its own. Also
the last month of a window, and of any months that ascend to one of them (`getLast?_of_greatest`).
-/

namespace Cashflow

namespace Date

/-- The Decembers from `first` to `last`. -/
def decembers (first last : Date) : List Date :=
  (months first last).filter fun d => d.month = 12

theorem hasMonth_december (y : Int) : HasMonth ⟨y, 12, 1⟩ := by
  simp [HasMonth]

section Decembers
variable {first last : Date}

theorem mem_decembers {d : Date} : d ∈ decembers first last ↔ d ∈ months first last ∧ d.month = 12 := by
  rw [decembers, List.mem_filter, decide_eq_true_eq]

theorem year_ascend_decembers : ((decembers first last).map year).Pairwise (· < ·) := by
  rw [List.pairwise_map]
  refine (index_ascend_months.filter _).imp_of_mem fun {a b} ha hb hab => ?_
  have hma := (mem_decembers.1 ha).2
  have hmb := (mem_decembers.1 hb).2
  simp only [index] at hab
  omega

/-- A December is the only month of its window with its year and month. -/
theorem mk_mem_decembers_iff {y : Int} :
    ⟨y, 12, 1⟩ ∈ months first last ↔ ∃ d ∈ decembers first last, d.year = y := by
  constructor
  · exact fun h => ⟨_, mem_decembers.2 ⟨h, rfl⟩, rfl⟩
  · rintro ⟨d, hd, rfl⟩
    obtain ⟨hmem, hmonth⟩ := mem_decembers.1 hd
    have hday := (mem_months.1 hmem).2.1
    rwa [← hmonth, ← hday]

/-- Months that ascend end with the greatest of them. -/
theorem getLast?_of_greatest {l : List Date} (hl : l.Pairwise fun m n => m.index < n.index) {d : Date}
    (hd : d ∈ l) (hgreatest : ∀ m ∈ l, m.index ≤ d.index) : l.getLast? = some d := by
  obtain ⟨before, x, rfl⟩ : ∃ before x, l = before ++ [x] :=
    ⟨_, _, (List.dropLast_concat_getLast (List.ne_nil_of_mem hd)).symm⟩
  rcases List.mem_append.1 hd with h | h
  · have hlt := (List.pairwise_append.1 hl).2.2 d h x List.mem_cons_self
    exact absurd hlt (Int.not_lt.2 (hgreatest x (List.mem_append_right _ List.mem_cons_self)))
  · rw [List.getLast?_concat, List.mem_singleton.1 h]

theorem getLast?_months (hl : last.HasMonth) (h : first.index ≤ last.index) :
    (months first last).getLast? = some last.startOfMonth :=
  getLast?_of_greatest index_ascend_months (mem_months.2 ⟨hl, rfl, h, Int.le_refl _⟩)
    fun _ hm => (mem_months.1 hm).2.2.2

end Decembers

end Date

end Cashflow

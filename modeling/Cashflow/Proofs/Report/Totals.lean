import Mathlib.Tactic.Ring
import Cashflow.Proofs.Ledger.Conservation
import Cashflow.Report.Frame

/-!
# Totals without rounding

On exact numbers nothing is missing, and all ways of adding a column give its plain total
(`balancedTotal_eq`, `ledTotal_eq`, `compensatedTotal_eq`). So the amounts of a group become their
total in a flow column, and their last in any other (`combine_flow`, `combine_last`).
-/

namespace Cashflow

namespace Amount

theorem isMissing_eq_false (x : Rat) : isMissing x = false := by
  simp [isMissing]

theorem filter_not_isMissing (xs : List Rat) : xs.filter (fun x => !isMissing x) = xs :=
  List.filter_eq_self.2 fun x _ => by rw [isMissing_eq_false]; rfl

end Amount

namespace Lanes
open Amount

theorem fill_eq (s : Lanes Rat) (xs : List Rat) :
    (s.fill xs).1.collect + total (s.fill xs).2 = s.collect + total xs := by
  fun_induction fill s xs with
  | case1 s a b c d e f g h rest ih =>
    rw [ih]
    simp only [collect, total_eq_sum, List.sum_cons]
    ring
  | case2 s rest h => rfl

end Lanes

namespace Amount

theorem blockTotal_eq (xs : List Rat) : blockTotal xs = total xs := by
  have hzero : (Lanes.zero : Lanes Rat).collect = 0 := by decide +kernel
  rw [blockTotal, foldl_add_eq, Lanes.fill_eq, hzero, zero_add]

theorem balancedTotal_eq (xs : List Rat) : balancedTotal xs = total xs := by
  fun_induction balancedTotal xs with
  | case1 xs h => exact blockTotal_eq xs
  | case2 xs h ih₁ ih₂ => rw [ih₁, ih₂, ← total_append, List.take_append_drop]

theorem ledTotal_eq (xs : List Rat) : ledTotal xs = total xs := by
  cases xs with
  | nil => rfl
  | cons x rest => rw [ledTotal, balancedTotal_eq, total_eq_sum, total_eq_sum, List.sum_cons]

theorem compensatedTotal_eq (xs : List Rat) : compensatedTotal xs = total xs := by
  have hadd : ∀ (s x : Rat), Compensated.add ⟨s, 0⟩ x = ⟨s + x, 0⟩ := by
    intro s x
    simp [Compensated.add]
  have hfold : ∀ (s : Rat) (ys : List Rat),
      ys.foldl Compensated.add ⟨s, 0⟩ = ⟨ys.foldl (· + ·) s, 0⟩ := by
    intro s ys
    induction ys generalizing s with
    | nil => rfl
    | cons y ys ih => rw [List.foldl_cons, hadd, ih, List.foldl_cons]
  rw [compensatedTotal, filter_not_isMissing]
  exact congrArg Compensated.sum (hfold 0 xs)

end Amount

namespace Cells
open Amount

theorem lastAmount_of_there {α : Type} [Amount α] (missing : α) {xs : List α}
    (h : ∀ x ∈ xs, isMissing x = false) : lastAmount missing xs = xs.getLast?.getD missing := by
  have hall : xs.filter (fun x => !isMissing x) = xs :=
    List.filter_eq_self.2 fun x hx => by rw [h x hx]; rfl
  rw [lastAmount, hall]

theorem lastAmount_eq (missing : Rat) (xs : List Rat) :
    lastAmount missing xs = xs.getLast?.getD missing :=
  lastAmount_of_there missing fun x _ => isMissing_eq_false x

theorem combine_flow (missing : Rat) (rows : List (Option Int)) (column xs : List Rat) :
    (combining true rows column).combine missing xs = total xs := by
  have hcases : combining true rows column = .compensated ∨ combining true rows column = .led := by
    unfold combining
    dsimp only
    repeat' split
    all_goals first | exact Or.inl rfl | exact Or.inr rfl | contradiction
  rcases hcases with h | h
  · rw [h]
    exact compensatedTotal_eq xs
  · rw [h]
    exact ledTotal_eq xs

theorem combine_last (missing : Rat) (rows : List (Option Int)) (column xs : List Rat) :
    (combining false rows column).combine missing xs = xs.getLast?.getD missing :=
  lastAmount_eq missing xs

end Cells

end Cashflow

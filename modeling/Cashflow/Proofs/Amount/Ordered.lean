import Mathlib.Algebra.Order.Ring.Rat
import Cashflow.Amount

/-!
# Numbers in order

What comparison and subtraction of amounts have in common on doubles and on exact numbers: numbers
that are there are compared by a total preorder, a missing one compares to nothing, and a difference
of bounded numbers is there, grows with the first of them and has the sign that comparing them gives
(`Amount.Ordered`). Nothing is said of the size of a difference, so it may be rounded.
-/

namespace Cashflow.Amount

/-- A number that is there is at most itself, a missing one is not. -/
class Ordered (α : Type) [Amount α] : Prop where
  le_trans {x y z : α} : x ≤ y → y ≤ z → x ≤ z
  le_total {x y : α} : x ≤ x → y ≤ y → x ≤ y ∨ y ≤ x
  there_of_le {x y : α} : x ≤ y → x ≤ x
  lt_iff {x y : α} : x ≤ x → y ≤ y → (x < y ↔ ¬ y ≤ x)
  beq_iff {x y : α} : (x == y) = true ↔ x ≤ y ∧ y ≤ x
  there {x : α} : isBounded x = true → x ≤ x
  sub_there {x y : α} : isBounded x = true → isBounded y = true → x - y ≤ x - y
  sub_le_sub {x y z : α} :
    isBounded x = true → isBounded y = true → isBounded z = true → x ≤ y → x - z ≤ y - z
  sub_nonneg {x y : α} : isBounded x = true → isBounded y = true → (0 ≤ x - y ↔ y ≤ x)
  sub_nonpos {x y : α} : isBounded x = true → isBounded y = true → (x - y ≤ 0 ↔ x ≤ y)

instance : Ordered Rat where
  le_trans h h' := le_trans h h'
  le_total _ _ := le_total _ _
  there_of_le _ := le_refl _
  lt_iff _ _ := not_le.symm
  beq_iff := by
    intro x y
    rw [beq_iff_eq, le_antisymm_iff]
  there _ := le_refl _
  sub_there _ _ := le_refl _
  sub_le_sub _ _ _ h := sub_le_sub_right h _
  sub_nonneg _ _ := sub_nonneg
  sub_nonpos _ _ := sub_nonpos

theorem not_isMissing {α : Type} [Amount α] {x : α} (h : x ≤ x) : ¬ isMissing x = true := by
  rw [isMissing, decide_eq_true h]
  exact Bool.false_ne_true

namespace Ordered
variable {α : Type} [Amount α] [Ordered α] {x y z : α}

theorem le_of_not_lt (hx : x ≤ x) (hy : y ≤ y) (h : ¬ x < y) : y ≤ x :=
  Decidable.not_not.1 fun hle => h ((lt_iff hx hy).2 hle)

theorem le_of_lt (hx : x ≤ x) (hy : y ≤ y) (h : x < y) : x ≤ y :=
  (le_total hx hy).resolve_right ((lt_iff hx hy).1 h)

theorem lt_of_lt_of_le (hx : x ≤ x) (hz : z ≤ z) (h : x < y) (h' : y ≤ z) : x < z := by
  have hnot := (lt_iff hx (there_of_le h')).1 h
  exact (lt_iff hx hz).2 fun hzx => hnot (le_trans h' hzx)

theorem lt_of_le_of_lt (hy : y ≤ y) (hz : z ≤ z) (h : x ≤ y) (h' : y < z) : x < z := by
  have hnot := (lt_iff hy hz).1 h'
  exact (lt_iff (there_of_le h) hz).2 fun hzx => hnot (le_trans hzx h)

end Ordered

end Cashflow.Amount

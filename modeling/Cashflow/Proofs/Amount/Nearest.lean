import Mathlib.Algebra.Order.Ring.Nat
import Mathlib.Tactic.SplitIfs
import Cashflow.Decimal.Binary

/-!
# Rounding to a number of binary figures

`Fraction.round` keeps the order of fractions over one denominator (`round_mono`), and so does
rounding a natural to its first 53 binary figures (`rounded_mono`), which changes no natural that has
no more of them (`rounded_of_short`).
-/

namespace Cashflow.Decimal

namespace Fraction
variable {n d : Nat}

theorem round_cases (n d : Nat) :
    round ⟨n, d⟩ = n / d ∧ 2 * (n % d) ≤ d ∨ round ⟨n, d⟩ = n / d + 1 ∧ d ≤ 2 * (n % d) := by
  unfold round
  dsimp only
  split
  · exact .inl ⟨rfl, by omega⟩
  · split
    · exact .inr ⟨rfl, by omega⟩
    · split
      · exact .inl ⟨rfl, by omega⟩
      · exact .inr ⟨rfl, by omega⟩

theorem floor_le_round (n d : Nat) : n / d ≤ round ⟨n, d⟩ := by
  rcases round_cases n d with h | h <;> omega

theorem round_le_floor_add_one (n d : Nat) : round ⟨n, d⟩ ≤ n / d + 1 := by
  rcases round_cases n d with h | h <;> omega

theorem round_mono {n' : Nat} (h : n ≤ n') : round ⟨n, d⟩ ≤ round ⟨n', d⟩ := by
  rcases Nat.lt_or_eq_of_le (Nat.div_le_div_right (c := d) h) with hlt | heq
  · exact (round_le_floor_add_one n d).trans (hlt.trans_le (floor_le_round n' d))
  · -- One floor: the remainders are in the order of the numerators.
    have hrest : n % d ≤ n' % d := by
      have hn := Nat.div_add_mod n d
      have hn' := Nat.div_add_mod n' d
      rw [heq] at hn
      omega
    unfold round
    dsimp only
    rw [heq]
    split_ifs <;> omega

theorem round_mul (q : Nat) (hd : 0 < d) : round ⟨q * d, d⟩ = q := by
  unfold round
  dsimp only
  rw [Nat.mul_mod_left, Nat.mul_div_cancel q hd, if_pos (by omega)]

theorem round_scale {c : Nat} (hc : 0 < c) : round ⟨n * c, d * c⟩ = round ⟨n, d⟩ := by
  have hlt : ∀ a b : Nat, a * c < b * c ↔ a < b := fun a b => Nat.mul_lt_mul_right hc
  unfold round
  dsimp only
  rw [Nat.mul_div_mul_right n d hc, Nat.mul_mod_mul_right, ← Nat.mul_assoc]
  simp only [hlt]

end Fraction

/-- How many binary figures of a natural come after the first 53. -/
def excessFigures (n : Nat) : Nat := n.log2 - 52

/-- The first 53 binary figures of a natural, rounded; they may carry into a 54th. -/
def significand (n : Nat) : Nat := Fraction.round ⟨n, 2 ^ excessFigures n⟩

/-- A natural, rounded to its first 53 binary figures. -/
def rounded (n : Nat) : Nat := significand n * 2 ^ excessFigures n

theorem rounded_zero : rounded 0 = 0 := by
  decide

theorem pow_le_rounded {n : Nat} (hn : n ≠ 0) : 2 ^ n.log2 ≤ rounded n := by
  have hsplit : 2 ^ n.log2 = 2 ^ (n.log2 - excessFigures n) * 2 ^ excessFigures n := by
    rw [← Nat.pow_add, Nat.sub_add_cancel (show excessFigures n ≤ n.log2 from Nat.sub_le _ _)]
  rw [rounded, significand, hsplit]
  refine Nat.mul_le_mul_right _ (le_trans ?_ (Fraction.floor_le_round _ _))
  rw [Nat.le_div_iff_mul_le (Nat.two_pow_pos _), ← hsplit]
  exact Nat.log2_self_le hn

theorem rounded_le_pow (n : Nat) : rounded n ≤ 2 ^ (n.log2 + 1) := by
  have hsplit : 2 ^ (n.log2 + 1) = 2 ^ (n.log2 + 1 - excessFigures n) * 2 ^ excessFigures n := by
    rw [← Nat.pow_add, Nat.sub_add_cancel (by unfold excessFigures; omega)]
  rw [rounded, significand, hsplit]
  refine Nat.mul_le_mul_right _ ((Fraction.round_le_floor_add_one _ _).trans ?_)
  rw [Nat.succ_le_iff, Nat.div_lt_iff_lt_mul (Nat.two_pow_pos _), ← hsplit]
  exact Nat.lt_log2_self

theorem rounded_pos {n : Nat} (hn : n ≠ 0) : 0 < rounded n :=
  (Nat.two_pow_pos _).trans_le (pow_le_rounded hn)

theorem rounded_mono {n n' : Nat} (h : n ≤ n') : rounded n ≤ rounded n' := by
  rcases Nat.eq_zero_or_pos n with rfl | hn
  · rw [rounded_zero]
    exact Nat.zero_le _
  have hn' : n' ≠ 0 := by omega
  have hlog : n.log2 ≤ n'.log2 := (Nat.le_log2 hn').2 ((Nat.log2_self_le hn.ne').trans h)
  rcases Nat.lt_or_eq_of_le hlog with hlt | heq
  · -- Between them there is a power of two.
    exact (rounded_le_pow n).trans
      ((Nat.pow_le_pow_right (by decide) hlt).trans (pow_le_rounded hn'))
  · rw [rounded, rounded, significand, significand, excessFigures, excessFigures, heq]
    exact Nat.mul_le_mul_right _ (Fraction.round_mono h)

theorem log2_mul_pow {m : Nat} (hm : m ≠ 0) (j : Nat) : (m * 2 ^ j).log2 = m.log2 + j := by
  have hpos : m * 2 ^ j ≠ 0 := Nat.mul_ne_zero hm (Nat.two_pow_pos j).ne'
  rw [Nat.log2_eq_iff hpos, Nat.add_right_comm, Nat.pow_add, Nat.pow_add]
  exact ⟨Nat.mul_le_mul_right _ (Nat.log2_self_le hm),
    Nat.mul_lt_mul_of_pos_right Nat.lt_log2_self (Nat.two_pow_pos j)⟩

/-- The figures do not depend on where they stand. -/
theorem significand_mul_pow {m j k : Nat} (hk : excessFigures (m * 2 ^ j) = k + j) :
    significand (m * 2 ^ j) = Fraction.round ⟨m, 2 ^ k⟩ := by
  rw [significand, hk, Nat.pow_add, Fraction.round_scale (Nat.two_pow_pos j)]

theorem significand_pos {n : Nat} (hn : n ≠ 0) : 0 < significand n :=
  Nat.pos_of_mul_pos_right (rounded_pos hn)

theorem significand_le (n : Nat) : significand n ≤ 2 ^ 53 := by
  have h := rounded_le_pow n
  have hle : 2 ^ (n.log2 + 1) ≤ 2 ^ 53 * 2 ^ excessFigures n := by
    rw [← Nat.pow_add]
    refine Nat.pow_le_pow_right (by decide) ?_
    unfold excessFigures
    omega
  exact Nat.le_of_mul_le_mul_right (h.trans hle) (Nat.two_pow_pos _)

theorem le_significand {n : Nat} (hn : n ≠ 0) (h : excessFigures n ≠ 0) : 2 ^ 52 ≤ significand n := by
  have hpow := pow_le_rounded hn
  have heq : 2 ^ n.log2 = 2 ^ 52 * 2 ^ excessFigures n := by
    rw [← Nat.pow_add]
    congr 1
    unfold excessFigures at h ⊢
    omega
  rw [heq] at hpow
  exact Nat.le_of_mul_le_mul_right hpow (Nat.two_pow_pos _)

theorem rounded_of_short {m : Nat} (hm : m < 2 ^ 53) (j : Nat) : rounded (m * 2 ^ j) = m * 2 ^ j := by
  rcases Nat.eq_zero_or_pos m with rfl | hpos
  · rw [Nat.zero_mul, rounded_zero]
  have hlog : m.log2 < 53 := (Nat.log2_lt hpos.ne').2 hm
  have hle : excessFigures (m * 2 ^ j) ≤ j := by
    rw [excessFigures, log2_mul_pow hpos.ne']
    omega
  obtain ⟨i, hi⟩ := Nat.exists_eq_add_of_le hle
  generalize hk : excessFigures (m * 2 ^ j) = k at hi
  have hsplit : m * 2 ^ j = m * 2 ^ i * 2 ^ k := by
    rw [hi, Nat.mul_assoc, ← Nat.pow_add, Nat.add_comm k i]
  rw [rounded, significand, hk, hsplit, Fraction.round_mul _ (Nat.two_pow_pos k)]

end Cashflow.Decimal

import Mathlib.Algebra.Order.Group.Abs
import Mathlib.Tactic.Linarith
import Mathlib.Tactic.Ring
import Cashflow.Proofs.Ledger.Conservation
import Cashflow.Review.Audit

/-!
# What an audit is worth

An audit looks at one month at a time, and at the recorded balance before it, be that right or wrong
(`Run.mem_discrepancies`). On exact numbers this still bounds how far a ledger without discrepancies can
be from the events that it lists: each month adds at most twice the tolerance, once for its amount and
once for its balance (`abs_drift_le`, `Run.abs_balanceBefore_sub_le`).

A run has no discrepancies at all, since it conserves (`Run.Conserves.month`). One balance of it that is
changed by more than the tolerance no longer fits the balance before it, which was not changed.

`audit_sound_complete_sensitive` says the three things of the rejection, however it is worded.
-/

namespace Cashflow

/-! ## Month by month -/

section Months
variable {α : Type} [Amount α]

theorem mem_discrepanciesFrom {r : Run α} {tol previous : α} {l : List (String × α)}
    {d : Discrepancy α} :
    d ∈ discrepanciesFrom r tol previous l ↔ ∃ i m b, l[i]? = some (m, b) ∧
      d ∈ monthDiscrepancies tol (((l.take i).map Prod.snd).getLast?.getD previous) m b
        (r.entry m) := by
  induction l generalizing previous with
  | nil => simp [discrepanciesFrom]
  | cons e l ih =>
    obtain ⟨m, b⟩ := e
    have hlast : ∀ i, ((((m, b) :: l).take (i + 1)).map Prod.snd).getLast?.getD previous =
        ((l.take i).map Prod.snd).getLast?.getD b := by
      intro i
      rw [List.take_succ_cons, List.map_cons, List.getLast?_cons, Option.getD_some]
    rw [discrepanciesFrom, List.mem_append, ih]
    constructor
    · rintro (hd | ⟨i, m', b', hi, hd⟩)
      · exact ⟨0, m, b, rfl, hd⟩
      · exact ⟨i + 1, m', b', hi, hlast i ▸ hd⟩
    · rintro ⟨i, m', b', hi, hd⟩
      cases i with
      | zero =>
        cases hi
        exact Or.inl hd
      | succ i => exact Or.inr ⟨i, m', b', hi, hlast i ▸ hd⟩

/-- The discrepancies are those of each month, against the balance that is recorded before it. -/
theorem Run.mem_discrepancies {r : Run α} {tol : α} {d : Discrepancy α} :
    d ∈ r.discrepancies tol ↔ ∃ i m b, r.balances.entries[i]? = some (m, b) ∧
      d ∈ monthDiscrepancies tol (r.balanceBefore i) m b (r.entry m) := by
  simp only [discrepancies, mem_discrepanciesFrom, List.map_take]
  exact Iff.rfl

theorem Run.discrepancies_eq_nil {r : Run α} {tol : α} :
    r.discrepancies tol = [] ↔ ∀ i m b, r.balances.entries[i]? = some (m, b) →
      monthDiscrepancies tol (r.balanceBefore i) m b (r.entry m) = [] := by
  simp only [List.eq_nil_iff_forall_not_mem, mem_discrepancies]
  constructor
  · exact fun h i m b hi d hd => h d ⟨i, m, b, hi, hd⟩
  · rintro h d ⟨i, m, b, hi, hd⟩
    exact h i m b hi d hd

theorem Run.getElem?_of_entry {r : Run α} {i : Nat} {m : String} {b : α}
    (h : r.balances.entries[i]? = some (m, b)) :
    r.months[i]? = some m ∧ r.balances.values[i]? = some b := by
  rw [months, Keyed.keys, Keyed.values, List.getElem?_map, List.getElem?_map, h]
  exact ⟨rfl, rfl⟩

/-- The signed amounts that are listed in the first `n` months. -/
def Run.firstAmounts (r : Run α) (n : Nat) : List α :=
  (r.months.take n).flatMap fun m => (r.entry m).signed

theorem Run.firstAmounts_succ {r : Run α} {i : Nat} {m : String} (h : r.months[i]? = some m) :
    r.firstAmounts (i + 1) = r.firstAmounts i ++ (r.entry m).signed := by
  rw [firstAmounts, List.take_add_one, h, Option.toList_some, List.flatMap_append, List.flatMap_singleton]
  rfl

end Months

/-! ## Rejections -/

theorem mem_eraseReps_loop {a x : String} {l acc : List String} :
    a ∈ List.eraseRepsBy.loop (· == ·) x l acc ↔ a ∈ acc ∨ a = x ∨ a ∈ l := by
  induction l generalizing x acc with
  | nil => simp [List.eraseRepsBy.loop, or_comm]
  | cons y l ih =>
    rw [List.eraseRepsBy.loop]
    split
    · rename_i hxy
      rw [ih, beq_iff_eq.1 hxy, List.mem_cons, or_self_left]
    · rw [ih, List.mem_cons, List.mem_cons, or_assoc, or_left_comm]

theorem mem_eraseReps {a : String} {l : List String} : a ∈ l.eraseReps ↔ a ∈ l := by
  cases l with
  | nil => exact Iff.rfl
  | cons x l =>
    rw [List.eraseReps, List.eraseRepsBy, mem_eraseReps_loop, List.mem_cons]
    exact or_iff_right List.not_mem_nil

theorem mem_sortedOnce {a : String} {l : List String} : a ∈ sortedOnce l ↔ a ∈ l := by
  rw [sortedOnce, mem_eraseReps, List.mem_mergeSort]

section Rejections
variable {α : Type} [Amount α] {wording : Discrepancy α → String} {r : Run α} {tol : α}

theorem Run.rejectionWorded?_eq_none :
    r.rejectionWorded? wording tol = none ↔ r.discrepancies tol = [] := by
  unfold rejectionWorded?
  split
  · rename_i h
    exact iff_of_true rfl h
  · rename_i h
    exact iff_of_false nofun h

/-- Whatever is wrong, its month is among the problems. -/
theorem Run.exists_rejection_of_mem {d : Discrepancy α} (h : d ∈ r.discrepancies tol) :
    ∃ rejection, r.rejectionWorded? wording tol = some rejection ∧ d.month ∈ rejection.problems := by
  unfold rejectionWorded?
  split
  · rename_i hnil
    rw [hnil] at h
    cases h
  · exact ⟨_, rfl, mem_sortedOnce.2 (List.mem_map_of_mem h)⟩

end Rejections

/-! ## Exact numbers -/

theorem Amount.magnitude_eq_abs (x : Rat) : Amount.magnitude x = |x| := by
  unfold magnitude
  split
  · rename_i h
    exact (abs_of_neg h).symm
  · rename_i h
    exact (abs_of_nonneg (not_lt.1 h)).symm

section Exact
variable {tol previous balance : Rat} {month : String} {t : Entry Rat}

theorem differs_iff {x : Rat} : differs tol x = true ↔ tol < |x| := by
  rw [differs, Amount.magnitude_eq_abs, decide_eq_true_iff]

theorem monthDiscrepancies_eq_nil :
    monthDiscrepancies tol previous month balance t = [] ↔
      |t.fired - t.amount| ≤ tol ∧ |previous + t.amount - balance| ≤ tol := by
  simp [monthDiscrepancies, differs_iff]

theorem mem_monthDiscrepancies_balance (h : tol < |previous + t.amount - balance|) :
    .balance month balance previous t.amount ∈
      monthDiscrepancies tol previous month balance t := by
  rw [monthDiscrepancies, if_pos (differs_iff.2 h)]
  exact List.mem_append_right _ List.mem_cons_self

/-- A month that passes adds its amount's drift and its balance's to that of the balance before. -/
theorem abs_drift_le {x e : Rat} (hpass : monthDiscrepancies tol previous month balance t = [])
    (hbefore : |previous - x| ≤ e) : |balance - (x + t.fired)| ≤ e + 2 * tol := by
  obtain ⟨hamount, hbalance⟩ := monthDiscrepancies_eq_nil.1 hpass
  have hsplit : balance - (x + t.fired) =
      (previous - x) - (t.fired - t.amount) - (previous + t.amount - balance) := by
    ring
  rw [hsplit]
  calc |(previous - x) - (t.fired - t.amount) - (previous + t.amount - balance)|
    _ ≤ |(previous - x) - (t.fired - t.amount)| + |previous + t.amount - balance| := abs_sub _ _
    _ ≤ |previous - x| + |t.fired - t.amount| + |previous + t.amount - balance| :=
      add_le_add_left (abs_sub _ _) _
    _ ≤ e + 2 * tol := by linarith

end Exact

/-- The drift of a ledger without discrepancies, at most twice the tolerance for each month. -/
theorem Run.abs_balanceBefore_sub_le {run : Run Rat} {tol : Rat} (h : run.discrepancies tol = [])
    {n : Nat} (hn : n ≤ run.balances.entries.length) :
    |run.balanceBefore n - (run.opening + Amount.total (run.firstAmounts n))| ≤ 2 * n * tol := by
  induction n with
  | zero =>
    have hstart : run.balanceBefore 0 - (run.opening + Amount.total (run.firstAmounts 0)) = 0 :=
      (congrArg _ (Rat.add_zero run.opening)).trans (sub_self run.opening)
    rw [hstart, abs_zero, Nat.cast_zero, mul_zero, zero_mul]
  | succ n ih =>
    obtain ⟨⟨m, b⟩, hentry⟩ : ∃ e, run.balances.entries[n]? = some e :=
      ⟨_, List.getElem?_eq_getElem hn⟩
    obtain ⟨hmonth, hvalue⟩ := getElem?_of_entry hentry
    have hstep := abs_drift_le (discrepancies_eq_nil.1 h n m b hentry) (ih (Nat.le_of_succ_le hn))
    rw [balanceBefore_succ hvalue, firstAmounts_succ hmonth, Amount.total_append, ← add_assoc]
    calc |b - (run.opening + Amount.total (run.firstAmounts n) + (run.entry m).fired)|
      _ ≤ 2 * n * tol + 2 * tol := hstep
      _ = 2 * (n + 1 : Nat) * tol := by push_cast; ring

/-! ## Runs -/

theorem Run.Conserves.month {run : Run Rat} (h : run.Conserves) {i : Nat} {m : String} {b : Rat}
    (hi : run.balances.entries[i]? = some (m, b)) :
    (run.entry m).amount = (run.entry m).fired ∧
      b = run.balanceBefore i + (run.entry m).amount := by
  obtain ⟨hkey, hvalue⟩ := getElem?_of_entry hi
  have hentry : run.cashflow.values[i]? = some (run.entry m) := by
    rw [Keyed.values_eq_map_get? run.cashflow {}, h.months, List.getElem?_map]
    rw [Run.months] at hkey
    rw [hkey]
    rfl
  exact ⟨h.amount i _ hentry, Option.some.inj (hvalue.symm.trans (h.exact.balance i _ hentry))⟩

theorem Run.Conserves.discrepancies_eq_nil {run : Run Rat} (h : run.Conserves) {tol : Rat}
    (htol : 0 ≤ tol) : run.discrepancies tol = [] := by
  refine Run.discrepancies_eq_nil.2 fun i m b hi => ?_
  obtain ⟨hamount, hbalance⟩ := h.month hi
  rw [monthDiscrepancies_eq_nil, hamount, sub_self, ← hamount, ← hbalance, sub_self, abs_zero]
  exact ⟨htol, htol⟩

/-- The run with one balance changed. -/
def Run.withBalance {α : Type} [Amount α] (r : Run α) (month : String) (b : α) : Run α :=
  { r with balances := r.balances.put month b }

/-- The balances before the changed one are as they were. -/
theorem Run.balanceBefore_withBalance {α : Type} [Amount α] {r : Run α} {i : Nat} {month : String}
    {b : α} (h : r.balances.entries[i]? = some (month, b)) (c : α) :
    (r.withBalance month c).balanceBefore i = r.balanceBefore i := by
  have hvalues : (r.withBalance month c).balances.values = r.balances.values.set i c := by
    rw [Keyed.values, withBalance, Keyed.entries_put_of_getElem? h, List.map_set]
    rfl
  rw [balanceBefore, hvalues, List.take_set_of_le (Nat.le_refl i)]
  rfl

theorem Run.Conserves.mem_discrepancies_withBalance {run : Run Rat} (h : run.Conserves) {tol b c : Rat}
    {month : String} (hb : run.balances.get? month = some b) (hc : tol < |c - b|) :
    ∃ d ∈ (run.withBalance month c).discrepancies tol, d.month = month := by
  obtain ⟨i, hi⟩ := Keyed.exists_getElem?_of_get? hb
  have hi' : (run.withBalance month c).balances.entries[i]? = some (month, c) := by
    rw [withBalance, Keyed.entries_put_of_getElem? hi,
      List.getElem?_set_self (List.getElem?_eq_some_iff.1 hi).1]
  have hmisfit : tol < |run.balanceBefore i + (run.entry month).amount - c| := by
    rw [← (h.month hi).2, abs_sub_comm]
    exact hc
  refine ⟨.balance month c (run.balanceBefore i) (run.entry month).amount, ?_, rfl⟩
  refine Run.mem_discrepancies.2 ⟨i, month, c, hi', ?_⟩
  rw [balanceBefore_withBalance hi]
  exact mem_monthDiscrepancies_balance hmisfit

/-- Every run passes the audit. A ledger that passes is off by at most twice the tolerance for each
month up to a balance, wherever it comes from. A run with one balance changed by more than the tolerance
is rejected, and the month of the balance named. -/
theorem audit_sound_complete_sensitive (wording : Discrepancy Rat → String) {tol : Rat}
    (htol : 0 ≤ tol) :
    (∀ (r : Registry) (s : Scenario Rat) {first last : Date} (opening : Rat) {run : Run Rat},
      first.HasMonth → last.HasMonth → s.writtenRun r first last opening = .ok run →
      run.rejectionWorded? wording tol = none) ∧
    (∀ run : Run Rat, run.rejectionWorded? wording tol = none →
      ∀ (k : Nat) (b : Rat), run.balances.values[k]? = some b →
      |b - (run.opening + Amount.total (run.firstAmounts (k + 1)))| ≤ 2 * (k + 1 : Nat) * tol) ∧
    ∀ (r : Registry) (s : Scenario Rat) {first last : Date} (opening : Rat) {run : Run Rat},
      first.HasMonth → last.HasMonth → s.writtenRun r first last opening = .ok run →
      ∀ (month : String) (b c : Rat), run.balances.get? month = some b → tol < |c - b| →
      ∃ rejection, (run.withBalance month c).rejectionWorded? wording tol = some rejection ∧
        month ∈ rejection.problems := by
  refine ⟨fun r s first last opening run hf hl h => ?_, fun run h k b hk => ?_,
    fun r s first last opening run hf hl h month b c hb hc => ?_⟩
  · exact Run.rejectionWorded?_eq_none.2
      ((conserves_of_writtenRun hf hl h).2.2.discrepancies_eq_nil htol)
  · have hlen : k < run.balances.values.length := (List.getElem?_eq_some_iff.1 hk).1
    rw [Keyed.values, List.length_map] at hlen
    rw [← Run.balanceBefore_succ hk]
    exact Run.abs_balanceBefore_sub_le (Run.rejectionWorded?_eq_none.1 h) hlen
  · obtain ⟨d, hd, rfl⟩ :=
      (conserves_of_writtenRun hf hl h).2.2.mem_discrepancies_withBalance hb hc
    exact Run.exists_rejection_of_mem hd

theorem audit_sound_complete_sensitive_household :
    ∃ run, household.writtenRun .full ⟨2025, 1, 15⟩ ⟨2025, 3, 2⟩ 0 = .ok run ∧
      run.balances.entries = [("2025-01", 250), ("2025-02", 160), ("2025-03", 460)] ∧
      run.rejectionWorded? Discrepancy.month 0 = none ∧
      |161 - ((run.withBalance "2025-02" 161).opening +
        Amount.total ((run.withBalance "2025-02" 161).firstAmounts 2))| ≤ 2 * (2 : Nat) * 1 ∧
      ∃ rejection, (run.withBalance "2025-02" 162).rejectionWorded? Discrepancy.month 1 =
        some rejection ∧ "2025-02" ∈ rejection.problems := by
  have hjanuary : Date.HasMonth ⟨2025, 1, 15⟩ := by decide
  have hmarch : Date.HasMonth ⟨2025, 3, 2⟩ := by decide
  have hrun := writtenRun_household
  refine ⟨_, hrun, by decide +kernel, ?_, ?_, ?_⟩
  · exact (audit_sound_complete_sensitive Discrepancy.month (Rat.le_refl)).1 .full household 0 hjanuary
      hmarch hrun
  · exact (audit_sound_complete_sensitive Discrepancy.month zero_le_one).2.1
      (Run.withBalance _ "2025-02" 161) (Run.rejectionWorded?_eq_none.2 (by decide +kernel)) 1 161
      (by decide +kernel)
  · exact (audit_sound_complete_sensitive Discrepancy.month zero_le_one).2.2 .full household 0 hjanuary
      hmarch hrun "2025-02" 160 162 (by decide +kernel) (by decide +kernel)

end Cashflow

import Mathlib.Algebra.BigOperators.Group.List.Basic
import Mathlib.Algebra.Order.Ring.Rat
import Cashflow.Proofs.Simulation.Outcome

/-!
# Conservation

In every month of a run the net amount is the sum of the signed amounts of the events listed for it,
and the closing balance is the balance before with the same amounts added to it in the same order
(`Run.Conserves`). On exact numbers the balance moves by the net amount, and over the whole run by
the sum of the net amounts (`Run.ConservesExactly`).

`Conserves.exact` goes from the first to the second, `Conserves.balanceBefore_eq` sums up to a month;
`conserves_books` has the first of every trace, `conserves_of_writtenRun` of every run.
-/

namespace Cashflow

section Ledgers
variable {α : Type} [Amount α]

/-- The signed amounts of the events of a month, in order. -/
def Entry.signed (t : Entry α) : List α := t.events.map Event.signedAmount

namespace Run

/-- The balance before the month at place `i` : the closing of the month before, or the opening. -/
def balanceBefore (run : Run α) (i : Nat) : α :=
  (run.balances.values.take i).getLast?.getD run.opening

theorem balanceBefore_succ {run : Run α} {i : Nat} {b : α} (h : run.balances.values[i]? = some b) :
    run.balanceBefore (i + 1) = b := by
  rw [balanceBefore, List.take_add_one, h, Option.toList_some, List.getLast?_concat, Option.getD_some]

/-- Month by month, the ledger adds up to its amounts and to the balances. -/
structure Conserves (run : Run α) : Prop where
  months : run.cashflow.keys = run.balances.keys
  amount : ∀ (i : Nat) (t : Entry α), run.cashflow.values[i]? = some t →
    t.amount = Amount.total t.signed
  balance : ∀ (i : Nat) (t : Entry α), run.cashflow.values[i]? = some t →
    run.balances.values[i]? = some (t.signed.foldl (· + ·) (run.balanceBefore i))

end Run

end Ledgers

/-- Without rounding, the balances move by the net amounts. -/
structure Run.ConservesExactly (run : Run Rat) : Prop where
  balance : ∀ (i : Nat) (t : Entry Rat), run.cashflow.values[i]? = some t →
    run.balances.values[i]? = some (run.balanceBefore i + t.amount)
  total : run.finalBalance - run.opening = Amount.total (run.cashflow.values.map Entry.amount)

/-! ## Exact sums -/

namespace Amount

theorem foldl_add_eq (c : Rat) (xs : List Rat) : xs.foldl (· + ·) c = c + total xs := by
  induction xs using List.reverseRecOn with
  | nil => exact (Rat.add_zero c).symm
  | append_singleton xs x ih =>
    rw [List.foldl_append, ih, total_concat]
    exact Rat.add_assoc c (total xs) x

theorem total_eq_sum (xs : List Rat) : total xs = xs.sum := List.sum_eq_foldl.symm

theorem total_append (xs ys : List Rat) : total (xs ++ ys) = total xs + total ys := by
  rw [total_eq_sum, total_eq_sum, total_eq_sum, List.sum_append]

/-- Without rounding, the order of a sum does not matter. -/
theorem total_perm {xs ys : List Rat} (h : xs.Perm ys) : total xs = total ys := by
  rw [total_eq_sum, total_eq_sum, h.sum_eq]

/-- Balances that move by the given amounts end their sum above the opening. -/
theorem getLast?_getD_eq (opening : Rat) {amounts balances : List Rat}
    (hlen : balances.length = amounts.length)
    (h : ∀ (i : Nat) (a : Rat), amounts[i]? = some a →
      balances[i]? = some ((balances.take i).getLast?.getD opening + a)) :
    balances.getLast?.getD opening = opening + total amounts := by
  induction amounts using List.reverseRecOn generalizing balances with
  | nil =>
    rw [List.length_eq_zero_iff.1 hlen]
    exact (Rat.add_zero opening).symm
  | append_singleton amounts a ih =>
    obtain ⟨before, b, rfl⟩ : ∃ before b, balances = before ++ [b] := by
      rw [List.length_append, List.length_singleton] at hlen
      exact ⟨_, _, (List.dropLast_concat_getLast (List.ne_nil_of_length_eq_add_one hlen)).symm⟩
    have hlen' : before.length = amounts.length := by simpa using hlen
    have hbefore : before.getLast?.getD opening = opening + total amounts := by
      refine ih hlen' fun i x hx => ?_
      have hi : i < amounts.length := (List.getElem?_eq_some_iff.1 hx).1
      have := h i x (by rw [List.getElem?_append_left hi, hx])
      rwa [List.getElem?_append_left (hlen'.symm ▸ hi),
        List.take_append_of_le_length (hlen'.symm ▸ hi.le)] at this
    have hlast := h amounts.length a (by simp)
    rw [← hlen', List.take_left', List.getElem?_concat_length, hbefore] at hlast
    · rw [List.getLast?_concat, Option.getD_some, Option.some.inj hlast, total_concat]
      exact Rat.add_assoc _ _ _
    · rfl

end Amount

theorem Run.Conserves.exact {run : Run Rat} (h : run.Conserves) : run.ConservesExactly := by
  have hbalance : ∀ (i : Nat) (t : Entry Rat), run.cashflow.values[i]? = some t →
      run.balances.values[i]? = some (run.balanceBefore i + t.amount) := by
    intro i t ht
    rw [h.balance i t ht, Amount.foldl_add_eq, h.amount i t ht]
  refine ⟨hbalance, ?_⟩
  have hlen : run.balances.values.length = (run.cashflow.values.map Entry.amount).length := by
    have := congrArg List.length h.months
    simpa [Keyed.keys, Keyed.values] using this.symm
  have htotal := Amount.getLast?_getD_eq run.opening hlen fun i a ha => by
    rw [List.getElem?_map] at ha
    obtain ⟨t, ht, rfl⟩ := Option.map_eq_some_iff.1 ha
    exact hbalance i t ht
  rw [Run.finalBalance, htotal]
  exact add_sub_cancel_left run.opening _

/-- Without rounding, the balance before a month is the opening and the net amounts before it. -/
theorem Run.Conserves.balanceBefore_eq {run : Run Rat} (h : run.Conserves) (n : Nat) :
    run.balanceBefore n =
      run.opening + Amount.total ((run.cashflow.values.take n).map Entry.amount) := by
  have hlen : run.balances.values.length = run.cashflow.values.length := by
    have := congrArg List.length h.months
    simpa [Keyed.keys, Keyed.values] using this.symm
  induction n with
  | zero => exact (Rat.add_zero _).symm
  | succ n ih =>
    cases ht : run.cashflow.values[n]? with
    | none =>
      have hnone : run.balances.values[n]? = none := by
        rw [List.getElem?_eq_none_iff] at ht ⊢
        omega
      rw [balanceBefore, List.take_add_one, List.take_add_one, hnone, ht, Option.toList_none,
        Option.toList_none, List.append_nil, List.append_nil]
      exact ih
    | some t =>
      rw [balanceBefore_succ (h.exact.balance n t ht), ih, List.take_add_one, ht, Option.toList_some,
        List.map_append, List.map_singleton, Amount.total_concat]
      exact Rat.add_assoc _ _ _

/-! ## Every trace conserves -/

open Trace

section Traces
variable {α : Type} [Amount α] {opening : α} {months : List Date}

theorem Trace.signed_entry (H : Trace α) (month : Date) :
    (H.entry month).signed = signed (H.during month) :=
  List.map_map

/-- The closing balance of the month before is that of all firings before the month. -/
theorem Trace.getLast?_closings {before after : List Date} {m : Date}
    (hs : (before ++ m :: after).Pairwise (· < ·)) {H : Trace α}
    (h : H = (before ++ m :: after).flatMap H.during) :
    (before.map fun m => (H.upTo m).balance opening).getLast?.getD opening =
      balance opening (before.flatMap H.during) := by
  induction before using List.reverseRecOn with
  | nil => rfl
  | append_singleton before d =>
    rw [List.append_assoc, List.singleton_append] at hs h
    rw [List.map_append, List.map_singleton, List.getLast?_concat, Option.getD_some,
      upTo_eq_flatMap hs h]

theorem Trace.conserves_books (name : String) (hs : months.Pairwise (· < ·))
    (hk : (months.map Date.key).Nodup) {H : Trace α} (h : H = months.flatMap H.during) :
    (Run.ofBooks name opening (H.books opening months)).Conserves := by
  refine ⟨?_, ?_, ?_⟩
  · exact (keys_cashflow opening hk H).trans (keys_balances opening hk H).symm
  · intro i t ht
    change (H.books opening months).cashflow.values[i]? = some t at ht
    rw [values_cashflow opening hk, List.getElem?_map] at ht
    obtain ⟨m, -, rfl⟩ := Option.map_eq_some_iff.1 ht
    rw [signed_entry]
    rfl
  · intro i t ht
    change (H.books opening months).cashflow.values[i]? = some t at ht
    rw [values_cashflow opening hk, List.getElem?_map] at ht
    obtain ⟨m, hm, rfl⟩ := Option.map_eq_some_iff.1 ht
    obtain ⟨hi, hmi⟩ := List.getElem?_eq_some_iff.1 hm
    -- The firings up to `m` are those of the months before, which the last closing has, then its own.
    have hsplit : months = months.take i ++ m :: months.drop (i + 1) := by
      rw [← hmi, ← List.drop_eq_getElem_cons hi, List.take_append_drop]
    have hbefore : ((months.map fun m => (H.upTo m).balance opening).take i).getLast?.getD opening =
        balance opening ((months.take i).flatMap H.during) := by
      rw [← List.map_take]
      rw [hsplit] at hs h
      exact getLast?_closings hs h
    have hclose : H.upTo m = (months.take i).flatMap H.during ++ H.during m := by
      rw [hsplit] at hs h
      rw [upTo_eq_flatMap hs h, List.flatMap_append, List.flatMap_singleton]
    show (H.books opening months).balances.values[i]? = some ((H.entry m).signed.foldl (· + ·)
      (((H.books opening months).balances.values.take i).getLast?.getD opening))
    rw [values_balances opening hk, List.getElem?_map, hm, hbefore, signed_entry, Option.map_some,
      hclose, balance_append]
    rfl

end Traces

theorem conserves_of_writtenRun {α : Type} [Amount α] {r : Registry} {s : Scenario α}
    {first last : Date} {opening : α} {run : Run α} (hf : first.HasMonth) (hl : last.HasMonth)
    (h : s.writtenRun r first last opening = .ok run) :
    run.opening = opening ∧ run.months = Date.keys first last ∧ run.Conserves := by
  obtain rfl := eq_of_writtenRun_ok hf hl h
  exact ⟨rfl, keys_balances opening Date.nodup_keys _, conserves_books s.name Date.months_ascend
    Date.nodup_keys (ofTurns_eq_flatMap opening s.events Date.nodup_months)⟩

/-- A run that returns adds up: each month's net amount and balance are the left-to-right sums of
the amounts listed for it, and without rounding the balances move by the net amounts. -/
theorem writtenRun_conserves :
    (∀ {α : Type} [Amount α] (r : Registry) (s : Scenario α) {first last : Date} (opening : α)
      {run : Run α}, first.HasMonth → last.HasMonth →
      s.writtenRun r first last opening = .ok run →
      run.opening = opening ∧ run.months = Date.keys first last ∧ run.Conserves) ∧
    ∀ (r : Registry) (s : Scenario Rat) {first last : Date} (opening : Rat) {run : Run Rat},
      first.HasMonth → last.HasMonth →
      s.writtenRun r first last opening = .ok run → run.ConservesExactly := by
  constructor
  · intro α _ r s first last opening run hf hl h
    exact conserves_of_writtenRun hf hl h
  · intro r s first last opening run hf hl h
    exact (conserves_of_writtenRun hf hl h).2.2.exact

theorem writtenRun_conserves_household :
    ∃ run, household.writtenRun .full ⟨2025, 1, 15⟩ ⟨2025, 3, 2⟩ 0 = .ok run ∧
      run.balances.entries = [("2025-01", 250), ("2025-02", 160), ("2025-03", 460)] ∧
      run.Conserves ∧ run.ConservesExactly := by
  have h := writtenRun_household
  refine ⟨_, h, by decide +kernel, ?_, ?_⟩
  · exact (writtenRun_conserves.1 .full household 0 (by decide) (by decide) h).2.2
  · exact writtenRun_conserves.2 .full household 0 (by decide) (by decide) h

end Cashflow

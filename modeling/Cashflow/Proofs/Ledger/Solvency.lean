import Mathlib.Tactic.Linarith
import Mathlib.Algebra.Order.Ring.Rat
import Cashflow.Proofs.Simulation.Outcome
import Cashflow.Proofs.Simulation.Invariant

/-!
# Solvency

A floor under the balance holds in every run of a scenario in which no amount is below zero and every
expense waits for a balance above the floor and its own amount (`solvent_of_keepsFloor`): after each
firing, at each closing, and where a fault stops the run.

Such an expense fires in the second pass, where conditions see the balance as the firing before left
it; so what one expense takes the next one does not count on (`floor_le_fire`).
-/

namespace Cashflow

/-- No amount is below zero, and every expense waits for a balance that it cannot bring below the
floor. -/
structure Scenario.KeepsFloor (floor : Rat) (s : Scenario Rat) : Prop where
  amount : ∀ e ∈ s.events, 0 ≤ e.amount
  expense : ∀ e ∈ s.events, e.type = expenseType →
    ∃ note x, .networthIsAbove note x ∈ e.conditions ∧ floor + e.amount ≤ x

/-- The balance and all closing balances so far are at least the floor. -/
def Books.AtLeast (floor : Rat) (b : Books Rat) : Prop :=
  floor ≤ b.balance ∧ ∀ v ∈ b.balances.values, floor ≤ v

section Firings
variable {r : Registry} {e : Event Rat} {o : OpenMonth Rat} {floor : Rat}

theorem floor_le_fire_of_income (he : e.isIncome = true) (ha : 0 ≤ e.amount)
    (ho : floor ≤ o.balance) : floor ≤ (o.fire e).balance := by
  show floor ≤ o.balance + e.signedAmount
  rw [Event.signedAmount, if_pos he]
  exact le_add_of_le_of_nonneg ho ha

/-- A firing in the second pass, seen by the balance it starts from. -/
theorem floor_le_fire {s : Scenario Rat} (hs : s.KeepsFloor floor) (hd : r.defect? e = none)
    (he : e ∈ s.events) (ho : floor ≤ o.balance) (hshown : o.shown = o.balance)
    (hfires : e.shouldFire r o.moment = .ok true) : floor ≤ (o.fire e).balance := by
  by_cases hincome : e.isIncome = true
  · exact floor_le_fire_of_income hincome (hs.amount e he) ho
  · have hexpense := (Registry.isIncome_or_expense_of_defect? hd).resolve_left hincome
    obtain ⟨note, x, hmem, hx⟩ := hs.expense e he hexpense
    have hholds := holds_of_shouldFire hfires _ hmem
    have habove : x < o.balance := by
      rw [← hshown]
      exact of_decide_eq_true hholds
    show floor ≤ o.balance + e.signedAmount
    rw [Event.signedAmount, if_neg hincome]
    show (floor : Rat) ≤ o.balance + -e.amount
    linarith

end Firings

/-- What a run of such a scenario keeps: in the second pass conditions see the running balance. -/
theorem keptBy_atLeast {r : Registry} {s : Scenario Rat} {floor : Rat} (hs : s.KeepsFloor floor)
    (hw : r.wire s.events = .ok ()) :
    KeptBy r s.events (Books.AtLeast floor) (fun o => floor ≤ o.balance)
      (fun o => floor ≤ o.balance ∧ o.shown = o.balance) where
  opens _ _ h := h.1
  first e he o ho _ := by
    obtain ⟨he, hfree⟩ := List.mem_filter.1 he
    refine floor_le_fire_of_income ?_ (hs.amount e he) ho
    have htype := Registry.isIncome_or_expense_of_defect? (Registry.defect?_of_wire hw e he)
    refine htype.resolve_right fun hexpense => ?_
    obtain ⟨note, x, hmem, -⟩ := hs.expense e he hexpense
    have hgated : e.isBalanceGated = true := List.any_eq_true.2 ⟨_, hmem, rfl⟩
    simp [hgated] at hfree
  shows _ ho := ⟨ho, rfl⟩
  second e he o ho hfires := by
    have he := (List.mem_filter.1 he).1
    exact ⟨floor_le_fire hs (Registry.defect?_of_wire hw e he) he ho.1 ho.2 hfires, rfl⟩
  closes b o hb ho := by
    refine ⟨ho.1, fun v hv => ?_⟩
    rcases Keyed.mem_values_put hv with rfl | hv
    · exact ho.1
    · exact hb.2 v hv
  interrupts b o hb ho := ⟨ho.elim id And.left, hb.2⟩

theorem leaves_writtenBooks {r : Registry} {s : Scenario Rat} {floor opening : Rat}
    (hs : s.KeepsFloor floor) (ho : floor ≤ opening) (first last : Date) :
    Leaves (Books.AtLeast floor) (s.writtenBooks r first last opening) :=
  KeptBy.leaves_writtenBooks (fun hw => keptBy_atLeast hs hw) ⟨ho, nofun⟩ first last

/-- A scenario whose expenses are gated by a floor keeps its balance at the floor or above in every
run that starts there: after each firing, at each closing, and where a fault stops it. -/
theorem solvent_of_keepsFloor (r : Registry) (s : Scenario Rat) (floor opening : Rat)
    (hs : s.KeepsFloor floor) (ho : floor ≤ opening) :
    (r.wire s.events = .ok () → ∀ months fired,
      JustFired r s.events { balance := opening } months fired → floor ≤ fired.balance) ∧
    ∀ first last : Date,
      (∀ run, s.writtenRun r first last opening = .ok run →
        ∀ v ∈ run.balances.values, floor ≤ v) ∧
      ∀ x, s.writtenBooks r first last opening = .error x →
        floor ≤ x.left.balance ∧ ∀ v ∈ x.left.balances.values, floor ≤ v := by
  refine ⟨fun hw months fired hf => ?_, fun first last => ⟨fun run hrun => ?_, fun x hx => ?_⟩⟩
  · have hstart : Books.AtLeast floor { balance := opening } := ⟨ho, nofun⟩
    exact ((keptBy_atLeast hs hw).of_justFired hstart hf).elim id And.left
  · obtain ⟨b, hb, rfl⟩ := writtenRun_eq_ok hrun
    have hleaves := leaves_writtenBooks (r := r) hs ho first last
    rw [hb] at hleaves
    exact hleaves.2
  · have hleaves := leaves_writtenBooks (r := r) hs ho first last
    rw [hx] at hleaves
    exact hleaves

/-- Two pleasures a month, each as long as it leaves fifty in the till. -/
def saver : Scenario Rat where
  name := "Saver"
  events := [
    { name := "Trip", type := "expense", amount := 30, recurrence := "monthly",
      conditions := [.networthIsAbove "Wage" 80] },
    { name := "Show", type := "expense", amount := 20, recurrence := "monthly",
      conditions := [.eventHappened "Trip", .networthIsAbove "Wage" 75] },
    { name := "Wage", type := "income", amount := 25, recurrence := "monthly" }]

theorem keepsFloor_saver : saver.KeepsFloor 50 where
  amount := by decide +kernel
  expense := by
    intro e he _
    simp only [saver, List.mem_cons, List.not_mem_nil, or_false] at he
    rcases he with rfl | rfl | rfl
    · exact ⟨"Wage", 80, by simp, by decide +kernel⟩
    · exact ⟨"Wage", 75, by simp, by decide +kernel⟩
    · contradiction

theorem solvent_of_keepsFloor_saver :
    saver.KeepsFloor 50 ∧
      (∃ run, saver.writtenRun .full ⟨2025, 1, 1⟩ ⟨2025, 3, 31⟩ 100 = .ok run ∧
        run.balances.values = [75, 70, 65] ∧ ∀ v ∈ run.balances.values, 50 ≤ v) ∧
      ∃ fired, JustFired .full saver.events { balance := 100 } [⟨2025, 1, 1⟩] fired ∧
        fired.entry.events.map Event.name = ["Wage", "Trip"] ∧ 50 ≤ fired.balance := by
  have hsolvent := solvent_of_keepsFloor .full saver 50 100 keepsFloor_saver (by decide +kernel)
  have hrun := writtenRun_of_nonneg (r := .full) (s := saver) 100 rfl
    (show Date.HasMonth ⟨2025, 1, 1⟩ by decide) (show Date.HasMonth ⟨2025, 3, 31⟩ by decide)
    (by decide) (by decide +kernel)
  have hok : ∀ x : Except Fault Bool, x.toOption = some true → x = .ok true := by
    rintro (f | b) h
    · cases h
    · exact congrArg Except.ok (Option.some.inj h)
  have hfired : JustFired .full saver.events { balance := (100 : Rat) } [⟨2025, 1, 1⟩] _ :=
    ⟨[], ⟨2025, 1, 1⟩, [], _, rfl, rfl,
      Or.inr ⟨_, rfl, [], _, _, _, rfl, rfl, hok _ (by decide +kernel), rfl⟩⟩
  refine ⟨keepsFloor_saver, ⟨_, hrun, by decide +kernel, ?_⟩, _, hfired, rfl, ?_⟩
  · exact (hsolvent.2 _ _).1 _ hrun
  · exact hsolvent.1 rfl _ _ hfired

end Cashflow

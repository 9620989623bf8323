import Mathlib.Algebra.Order.Ring.Rat
import Mathlib.Tactic.NormNum
import Cashflow.Proofs.Paired
import Cashflow.Proofs.Simulation.InStep

/-!
# The unit of the amounts

Amounts may be counted in any unit: when the opening balance, the amounts of the events and the
thresholds of the conditions are all multiplied by one positive number, the same places fire in the
same months, and the ledger and the balances are multiplied by it too (`writtenRun_scale`).

The run in the other unit is in step with the first: what it shows to conditions is multiplied by
the number, and so is what they compare it with (`Condition.holds_scale`).
-/

namespace Cashflow

/-! ## Another unit -/

def Condition.scale (k : Rat) : Condition Rat → Condition Rat
  | .dateIs d => .dateIs d
  | .dateInRange first last => .dateInRange first last
  | .networthIsAbove note x => .networthIsAbove note (k * x)
  | .eventHappened name => .eventHappened name
  | .incomeIsAbove name x => .incomeIsAbove name (k * x)

def Event.scale (k : Rat) (e : Event Rat) : Event Rat :=
  { e with amount := k * e.amount, conditions := e.conditions.map (Condition.scale k) }

def Scenario.scale (k : Rat) (s : Scenario Rat) : Scenario Rat :=
  { s with events := s.events.map (Event.scale k) }

def Entry.scale (k : Rat) (t : Entry Rat) : Entry Rat :=
  ⟨k * t.amount, t.events.map (Event.scale k)⟩

/-- A month in progress, in another unit. -/
def OpenMonth.scale (k : Rat) (o : OpenMonth Rat) : OpenMonth Rat :=
  { o with shown := k * o.shown, balance := k * o.balance, entry := o.entry.scale k }

/-- The books say the same in another unit. -/
structure Books.Scaled (k : Rat) (b b' : Books Rat) : Prop where
  balance : b'.balance = k * b.balance
  cashflow : b.cashflow.Paired Eq (fun t t' => t' = t.scale k) b'.cashflow
  balances : b.balances.Paired Eq (fun v v' => v' = k * v) b'.balances
  history : b'.history = b.history

/-! ## What is asked -/

theorem Condition.kind_scale (k : Rat) (c : Condition Rat) : (c.scale k).kind = c.kind := by
  cases c <;> rfl

theorem Event.signedAmount_scale (k : Rat) (e : Event Rat) :
    (e.scale k).signedAmount = k * e.signedAmount := by
  have hincome : (e.scale k).isIncome = e.isIncome := rfl
  unfold signedAmount
  rw [hincome]
  split
  · rfl
  · exact (mul_neg k e.amount).symm

theorem add_signedAmount_scale (k x : Rat) (e : Event Rat) :
    k * x + (e.scale k).signedAmount = k * (x + e.signedAmount) := by
  rw [Event.signedAmount_scale]
  exact (mul_add k x e.signedAmount).symm

theorem Event.dateRange?_scale (k : Rat) (e : Event Rat) :
    (e.scale k).dateRange? = e.dateRange? := by
  have hrange : ∀ c : Condition Rat, (c.scale k).range? = c.range? := fun c => by cases c <;> rfl
  show (e.conditions.map (Condition.scale k)).findSome? Condition.range? = _
  rw [List.findSome?_map]
  simp only [Function.comp_def, hrange]
  rfl

section Asked
variable {k : Rat} (o : OpenMonth Rat)

theorem isOpen_scale (e : Event Rat) (p : Recurrence) :
    p.isOpen (e.scale k) (o.scale k).moment = p.isOpen e o.moment := by
  cases p with
  | once => rfl
  | monthly => rfl
  | yearly =>
    unfold Recurrence.isOpen Recurrence.yearlyOpen
    rw [Event.dateRange?_scale]
    rfl

theorem Condition.holds_scale (hk : 0 < k) (c : Condition Rat) :
    (c.scale k).holds (o.scale k).moment = c.holds o.moment := by
  cases c with
  | dateIs d => rfl
  | dateInRange first last => rfl
  | eventHappened name => rfl
  | networthIsAbove note x =>
    show decide (k * x < k * o.shown) = decide (x < o.shown)
    exact decide_eq_decide.2 (mul_lt_mul_iff_right₀ hk)
  | incomeIsAbove name x =>
    have hfirst : firedIncome? name (o.entry.events.map (Event.scale k)) =
        (firedIncome? name o.entry.events).map (Event.scale k) :=
      firedIncome?_map (g := Event.scale k) (fun _ => rfl) (fun _ => rfl) name o.entry.events
    have hfired : (o.scale k).moment.fired = o.entry.events.map (Event.scale k) := rfl
    have hshown : o.moment.fired = o.entry.events := rfl
    simp only [scale, holds, hfired, hfirst, hshown]
    cases firedIncome? name o.entry.events with
    | none => rfl
    | some e => exact decide_eq_decide.2 (mul_le_mul_iff_right₀ hk)

end Asked

/-! ## What a firing does -/

theorem Entry.add_scale (k : Rat) (t : Entry Rat) (e : Event Rat) :
    (t.scale k).add (e.scale k) = (t.add e).scale k := by
  have hevents : t.events.map (Event.scale k) ++ [e.scale k] =
      (t.events ++ [e]).map (Event.scale k) := by
    rw [List.map_append, List.map_singleton]
  exact congrArg₂ Entry.mk (add_signedAmount_scale k t.amount e) hevents

theorem OpenMonth.fire_scale (k : Rat) (o : OpenMonth Rat) (e : Event Rat) :
    (o.scale k).fire (e.scale k) = (o.fire e).scale k := by
  have hentry : (o.scale k).entry.add (e.scale k) = (o.entry.add e).scale k :=
    Entry.add_scale k o.entry e
  simp only [fire, hentry]
  simp only [scale, add_signedAmount_scale]
  rfl

/-! ## In step -/

theorem Books.openMonth_scaled {k : Rat} {b b' : Books Rat} (h : b.Scaled k b') (m : Date) :
    b'.openMonth m = (b.openMonth m).scale k := by
  have hentry : (⟨0, []⟩ : Entry Rat) = Entry.scale k ⟨0, []⟩ :=
    congrArg (Entry.mk · []) (mul_zero k).symm
  simp only [openMonth, OpenMonth.scale, h.balance, h.history]
  exact congrArg (OpenMonth.mk m _ _ _) hentry

theorem Books.close_scaled {k : Rat} {b b' : Books Rat} (h : b.Scaled k b') (o : OpenMonth Rat) :
    (b.close o).Scaled k (b'.close (o.scale k)) where
  balance := rfl
  cashflow := h.cashflow.put biUnique_eq rfl rfl
  balances := h.balances.put biUnique_eq rfl rfl
  history := rfl

theorem inStep_scale (r : Registry) {k : Rat} (hk : 0 < k) :
    InStep r (fun e e' => e' = e.scale k) Eq (Books.Scaled k) (fun o o' => o' = o.scale k) where
  gated := by
    rintro e _ rfl
    exact isBalanceGated_eq_of_map (Condition.kind_scale k) rfl
  defect := by
    rintro e _ rfl
    exact defect?_eq_of_map (Condition.kind_scale k) rfl rfl rfl rfl
  opens := by
    rintro b b' m _ hb rfl
    exact b.openMonth_scaled hb m
  asks := by
    rintro e _ o _ rfl rfl
    exact shouldFire_eq_of_map (Condition.kind_scale k) rfl rfl (isOpen_scale o e)
      fun c _ => Condition.holds_scale o hk c
  fire := by
    rintro e _ o _ rfl rfl
    exact o.fire_scale k e
  refresh := by
    rintro o _ rfl
    rfl
  closes := by
    rintro b b' o _ hb rfl
    exact b.close_scaled hb o

/-! ## Runs in another unit -/

/-- The run says the same in another unit. -/
structure Run.Scaled (k : Rat) (run run' : Run Rat) : Prop where
  cashflow : run'.cashflow.entries = run.cashflow.entries.map fun p => (p.1, p.2.scale k)
  balances : run'.balances.entries = run.balances.entries.map fun p => (p.1, k * p.2)
  history : run'.history = run.history
  opening : run'.opening = k * run.opening

theorem Books.Scaled.run {k : Rat} {b b' : Books Rat} (h : b.Scaled k b') (name : String)
    (opening : Rat) : (Run.ofBooks name opening b).Scaled k (.ofBooks name (k * opening) b') :=
  ⟨h.cashflow.entries_eq_map, h.balances.entries_eq_map, h.history, rfl⟩

/-- In another unit the same places fire in the same months. What the run returns is multiplied by
the number that multiplies the amounts, but for the history, which is the same; and one run returns
when the other does, so both do from the year zero on, as far as months are written. -/
theorem writtenRun_scale (r : Registry) (s : Scenario Rat) (first last : Date) (opening : Rat)
    {k : Rat} (hk : 0 < k) :
    (s.scale k).placesFired r first last (k * opening) = s.placesFired r first last opening ∧
    (∀ fault, s.writtenRun r first last opening = .error fault →
      (s.scale k).writtenRun r first last (k * opening) = .error fault) ∧
    (∀ run, s.writtenRun r first last opening = .ok run →
      ∃ run', (s.scale k).writtenRun r first last (k * opening) = .ok run' ∧ run.Scaled k run') ∧
    (r.wire s.events = .ok () → first.HasMonth → last.HasMonth → 0 ≤ first.year →
      ∃ run run', s.Yields r first last opening run ∧
        (s.scale k).Yields r first last (k * opening) run' ∧ run.Scaled k run') := by
  have h := inStep_scale r hk
  have hevents : List.Forall₂ (fun e e' => e' = e.scale k) s.events (s.scale k).events :=
    List.forall₂_map_right_iff.2 (List.forall₂_same.2 fun _ _ => rfl)
  have hmonths : List.Forall₂ Eq (Date.window first last) (Date.window first last) :=
    List.forall₂_same.2 fun _ _ => rfl
  have hstart : Books.Scaled k { balance := opening } { balance := k * opening } :=
    ⟨rfl, .empty, .empty, rfl⟩
  obtain ⟨hfault, hreturns⟩ :=
    (h.writtenBooks hevents hstart (fun _ => rfl) first last).writtenRun
  refine ⟨?_, hfault, fun run hrun => ?_, fun hw hf hl hy => ?_⟩
  · have hplaces := h.placesFired hevents hstart hmonths
    rw [← List.forall₂_eq_eq_eq]
    exact hplaces.flip.imp fun _ _ hp => Prod.ext hp.1.symm hp.2
  · obtain ⟨b, b', hb, rfl, hrun'⟩ := hreturns run hrun
    exact ⟨_, hrun', hb.run s.name opening⟩
  · obtain ⟨b, b', hb, hbooks, hyields⟩ :=
      (h.books hevents hstart hmonths).yields (yields_trace opening hw hf hl hy)
    exact ⟨_, _, yields_trace opening hw hf hl hy, hyields, hbooks ▸ hb.run s.name opening⟩

/-- The household in thousands. -/
theorem writtenRun_scale_household :
    (0 : Rat) < 1 / 1000 ∧
    (household.scale (1 / 1000)).placesFired .full ⟨2025, 1, 15⟩ ⟨2025, 3, 2⟩ (1 / 1000 * 0) =
      household.placesFired .full ⟨2025, 1, 15⟩ ⟨2025, 3, 2⟩ 0 ∧
    (∃ run run', household.Yields .full ⟨2025, 1, 15⟩ ⟨2025, 3, 2⟩ 0 run ∧
      (household.scale (1 / 1000)).Yields .full ⟨2025, 1, 15⟩ ⟨2025, 3, 2⟩ (1 / 1000 * 0) run' ∧
      run.Scaled (1 / 1000) run' ∧
      run'.balances.entries = [("2025-01", 1 / 4), ("2025-02", 4 / 25), ("2025-03", 23 / 50)]) := by
  have hk : (0 : Rat) < 1 / 1000 := by norm_num
  obtain ⟨hplaces, -, -, hyields⟩ :=
    writtenRun_scale .full household ⟨2025, 1, 15⟩ ⟨2025, 3, 2⟩ 0 hk
  obtain ⟨run, run', hrun, hrun', hscaled⟩ := hyields rfl (by decide) (by decide) (by decide)
  refine ⟨hk, hplaces, run, run', hrun, hrun', hscaled, ?_⟩
  rw [hscaled.balances, hrun.unique (yields_trace 0 rfl (by decide) (by decide) (by decide))]
  decide +kernel

end Cashflow

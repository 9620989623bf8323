import Cashflow.Proofs.Paired
import Cashflow.Proofs.Simulation.InStep

/-!
# Month resolution

A run does not look at days. Scenarios that are the same when all dates of their conditions are moved
to the first of the month (`Scenario.withoutDays`) fire the same places in the same months of any
windows that are the same in this sense, and return the same ledger, but for the days in the events
that it lists, the same balances and the same history, or the same fault
(`writtenRun_of_withoutDays_eq`).

What conditions and recurrences read of a date is its month (`Condition.holds_withoutDays`,
`isOpen_withoutDays`), so both runs ask what the run of the scenario without days asks, and are in
step with each other (`inStep_withoutDays`).
-/

namespace Cashflow

/-! ## Dates at the first of their month -/

section WithoutDays
variable {α : Type}

def Condition.withoutDays : Condition α → Condition α
  | .dateIs d => .dateIs d.startOfMonth
  | .dateInRange first last => .dateInRange first.startOfMonth (last.map Date.startOfMonth)
  | .networthIsAbove note x => .networthIsAbove note x
  | .eventHappened name => .eventHappened name
  | .incomeIsAbove name x => .incomeIsAbove name x

def Event.withoutDays (e : Event α) : Event α :=
  { e with conditions := e.conditions.map Condition.withoutDays }

def Scenario.withoutDays (s : Scenario α) : Scenario α :=
  { s with events := s.events.map Event.withoutDays }

end WithoutDays

variable {α : Type} [Amount α]

def Entry.withoutDays (t : Entry α) : Entry α := ⟨t.amount, t.events.map Event.withoutDays⟩

def OpenMonth.withoutDays (o : OpenMonth α) : OpenMonth α := { o with entry := o.entry.withoutDays }

/-- The books are the same but for the days in the events that they list. -/
structure Books.SameButDays (b b' : Books α) : Prop where
  balance : b'.balance = b.balance
  cashflow : b.cashflow.Paired Eq (fun t t' => t'.withoutDays = t.withoutDays) b'.cashflow
  balances : b'.balances = b.balances
  history : b'.history = b.history

/-! ## What is asked -/

omit [Amount α] in
theorem Condition.kind_withoutDays (c : Condition α) : c.withoutDays.kind = c.kind := by
  cases c <;> rfl

omit [Amount α] in
theorem Event.dateRange?_withoutDays (e : Event α) :
    e.withoutDays.dateRange? =
      e.dateRange?.map fun p => (p.1.startOfMonth, p.2.map Date.startOfMonth) := by
  have hrange : ∀ c : Condition α, c.withoutDays.range? =
      c.range?.map fun p => (p.1.startOfMonth, p.2.map Date.startOfMonth) := fun c => by
    cases c <;> rfl
  show (e.conditions.map Condition.withoutDays).findSome? Condition.range? = _
  rw [Event.dateRange?, List.findSome?_map, List.map_findSome?]
  congr 1
  funext c
  exact hrange c

/-- The bounds of a range are months, and so is the far future. -/
theorem inRange_withoutDays (first : Date) (last : Option Date) (m : Date) :
    Condition.inRange first.startOfMonth (last.map Date.startOfMonth) m =
      Condition.inRange first last m := by
  cases last <;> rfl

section Asked
variable (o : OpenMonth α)

theorem isOpen_withoutDays (e : Event α) (p : Recurrence) :
    p.isOpen e.withoutDays o.withoutDays.moment = p.isOpen e o.moment := by
  cases p with
  | once => rfl
  | monthly => rfl
  | yearly =>
    unfold Recurrence.isOpen Recurrence.yearlyOpen
    rw [Event.dateRange?_withoutDays]
    cases e.dateRange? <;> rfl

theorem Condition.holds_withoutDays (c : Condition α) :
    c.withoutDays.holds o.withoutDays.moment = c.holds o.moment := by
  cases c with
  | dateIs d => rfl
  | dateInRange first last => exact inRange_withoutDays first last o.month
  | networthIsAbove note x => rfl
  | eventHappened name => rfl
  | incomeIsAbove name x =>
    have hfirst : firedIncome? name (o.entry.events.map Event.withoutDays) =
        (firedIncome? name o.entry.events).map Event.withoutDays :=
      firedIncome?_map (g := Event.withoutDays) (fun _ => rfl) (fun _ => rfl) name o.entry.events
    have hfired : o.withoutDays.moment.fired = o.entry.events.map Event.withoutDays := rfl
    have hshown : o.moment.fired = o.entry.events := rfl
    simp only [withoutDays, holds, hfired, hfirst, hshown]
    cases firedIncome? name o.entry.events <;> rfl

theorem Event.shouldFire_withoutDays (r : Registry) (e : Event α) :
    e.withoutDays.shouldFire r o.withoutDays.moment = e.shouldFire r o.moment :=
  shouldFire_eq_of_map Condition.kind_withoutDays rfl rfl (isOpen_withoutDays o e)
    fun c _ => Condition.holds_withoutDays o c

end Asked

/-! ## What a firing does -/

theorem Entry.add_withoutDays (t : Entry α) (e : Event α) :
    (t.add e).withoutDays = t.withoutDays.add e.withoutDays :=
  congrArg (Entry.mk (t.amount + e.signedAmount)) (List.map_append ..)

theorem OpenMonth.fire_withoutDays (o : OpenMonth α) (e : Event α) :
    (o.fire e).withoutDays = o.withoutDays.fire e.withoutDays :=
  congrArg (OpenMonth.mk o.month o.shown (o.balance + e.signedAmount)
    (o.history.record e.name o.month.key)) (o.entry.add_withoutDays e)

/-! ## In step -/

theorem inStep_withoutDays (r : Registry) :
    InStep r (fun e e' => e'.withoutDays = e.withoutDays) Eq (Books.SameButDays (α := α))
      (fun o o' => o'.withoutDays = o.withoutDays) where
  gated := by
    intro e e' he
    have hgated : ∀ e : Event α, e.withoutDays.isBalanceGated = e.isBalanceGated := fun e =>
      isBalanceGated_eq_of_map Condition.kind_withoutDays rfl
    rw [← hgated e', he, hgated e]
  defect := by
    intro e e' he
    have hdefect : ∀ e : Event α, r.defect? e.withoutDays = r.defect? e := fun e =>
      defect?_eq_of_map Condition.kind_withoutDays rfl rfl rfl rfl
    rw [← hdefect e', he, hdefect e]
  opens := by
    rintro b b' m _ hb rfl
    simp only [Books.openMonth, hb.balance, hb.history]
  asks := by
    intro e e' o o' he ho
    rw [← Event.shouldFire_withoutDays o', he, ho, Event.shouldFire_withoutDays]
  fire := by
    intro e e' o o' he ho
    rw [OpenMonth.fire_withoutDays, he, ho, OpenMonth.fire_withoutDays]
  refresh := by
    intro o o' ho
    exact congrArg OpenMonth.refresh ho
  closes := by
    intro b b' o o' hb ho
    obtain ⟨hmonth, -, hbalance, hhistory, hentry⟩ := OpenMonth.mk.inj ho
    have hkey : o.month.key = o'.month.key := congrArg Date.key hmonth.symm
    refine ⟨hbalance, hb.cashflow.put biUnique_eq hkey hentry, ?_, hhistory⟩
    show b'.balances.put o'.month.key o'.balance = b.balances.put o.month.key o.balance
    rw [hb.balances, hkey, hbalance]

/-! ## Runs at month resolution -/

/-- The run is the same but for the days in the events that it lists. -/
structure Run.SameButDays (run run' : Run α) : Prop where
  cashflow : run.cashflow.Paired Eq (fun t t' => t'.withoutDays = t.withoutDays) run'.cashflow
  balances : run'.balances = run.balances
  history : run'.history = run.history
  opening : run'.opening = run.opening
  scenario : run'.scenario = run.scenario

theorem Books.SameButDays.run {b b' : Books α} (h : b.SameButDays b') (name : String)
    (opening : α) :
    (Run.ofBooks name opening b).SameButDays (.ofBooks name opening b') :=
  ⟨h.cashflow, h.balances, h.history, rfl, rfl⟩

/-- Scenarios that differ in days only, over windows that do, fire the same places in the same
months and return the same but for the days, or the same fault. -/
theorem writtenRun_of_withoutDays_eq (r : Registry) {s s' : Scenario α} (first last : Date)
    (firstDay lastDay : Int) (opening : α) (hs : s'.withoutDays = s.withoutDays) :
    let first' : Date := { first with day := firstDay }
    let last' : Date := { last with day := lastDay }
    s'.placesFired r first' last' opening = s.placesFired r first last opening ∧
    (∀ fault, s.writtenRun r first last opening = .error fault →
      s'.writtenRun r first' last' opening = .error fault) ∧
    (∀ run, s.writtenRun r first last opening = .ok run →
      ∃ run', s'.writtenRun r first' last' opening = .ok run' ∧ run.SameButDays run') ∧
    (r.wire s.events = .ok () → first.HasMonth → last.HasMonth → 0 ≤ first.year →
      ∃ run run', s.Yields r first last opening run ∧ s'.Yields r first' last' opening run' ∧
        run.SameButDays run') := by
  intro first' last'
  have h := inStep_withoutDays (α := α) r
  obtain ⟨hname, hmap⟩ := Scenario.mk.inj hs
  have hevents : List.Forall₂ (fun e e' => e'.withoutDays = e.withoutDays) s.events s'.events := by
    rw [← List.forall₂_eq_eq_eq, List.forall₂_map_left_iff, List.forall₂_map_right_iff] at hmap
    exact hmap.flip
  have hmonths : List.Forall₂ Eq (Date.window first last) (Date.window first last) :=
    List.forall₂_same.2 fun _ _ => rfl
  have hstart : Books.SameButDays ({ balance := opening } : Books α) { balance := opening } :=
    ⟨rfl, .empty, rfl, rfl⟩
  -- A window is one of months, so both scenarios may be compared over the same one.
  have hplaces : s'.placesFired r first' last' opening = s'.placesFired r first last opening := rfl
  have hwindow : s'.writtenRun r first' last' opening = s'.writtenRun r first last opening := rfl
  obtain ⟨hfault, hreturns⟩ :=
    (h.writtenBooks hevents hstart (fun _ => rfl) first last).writtenRun
  rw [hplaces, hwindow]
  refine ⟨?_, hfault, fun run hrun => ?_, fun hw hf hl hy => ?_⟩
  · have hfired := h.placesFired hevents hstart hmonths
    rw [← List.forall₂_eq_eq_eq]
    exact hfired.flip.imp fun _ _ hp => Prod.ext hp.1.symm hp.2
  · obtain ⟨b, b', hb, rfl, hrun'⟩ := hreturns run hrun
    rw [hname] at hrun'
    exact ⟨_, hrun', hb.run s.name opening⟩
  · obtain ⟨b, b', hb, hbooks, hyields⟩ :=
      (h.books hevents hstart hmonths).yields (yields_trace opening hw hf hl hy)
    rw [hname] at hyields
    exact ⟨_, _, yields_trace opening hw hf hl hy, ⟨hyields.run_eq, hyields.written⟩,
      hbooks ▸ hb.run s.name opening⟩

/-- The household with other days, of which some are none of the calendar's. -/
def householdOnOtherDays : Scenario Rat where
  name := "Household"
  events := household.events.take 2 ++ [
    { name := "Salary", type := "income", amount := 250, recurrence := "monthly",
      conditions := [.dateInRange ⟨2025, 1, 31⟩ none] },
    { name := "Bonus", type := "income", amount := 90, recurrence := "yearly",
      conditions := [.dateInRange ⟨2025, 3, 77⟩ (some ⟨2030, 1, -4⟩)] }]

theorem writtenRun_of_withoutDays_eq_household :
    householdOnOtherDays.withoutDays = household.withoutDays ∧
    householdOnOtherDays.placesFired .full ⟨2025, 1, 99⟩ ⟨2025, 3, 0⟩ 0 =
      household.placesFired .full ⟨2025, 1, 15⟩ ⟨2025, 3, 2⟩ 0 ∧
    ∃ run run', household.Yields .full ⟨2025, 1, 15⟩ ⟨2025, 3, 2⟩ 0 run ∧
      householdOnOtherDays.Yields .full ⟨2025, 1, 99⟩ ⟨2025, 3, 0⟩ 0 run' ∧
      run.SameButDays run' ∧
      run'.balances.entries = [("2025-01", 250), ("2025-02", 160), ("2025-03", 460)] := by
  have hs : householdOnOtherDays.withoutDays = household.withoutDays := rfl
  obtain ⟨hplaces, -, -, hyields⟩ :=
    writtenRun_of_withoutDays_eq .full ⟨2025, 1, 15⟩ ⟨2025, 3, 2⟩ 99 0 0 hs
  obtain ⟨run, run', hrun, hrun', hsame⟩ := hyields rfl (by decide) (by decide) (by decide)
  refine ⟨hs, hplaces, run, run', hrun, hrun', hsame, ?_⟩
  rw [hsame.balances, hrun.unique (yields_trace 0 rfl (by decide) (by decide) (by decide))]
  decide +kernel

end Cashflow

import Cashflow.Proofs.Paired
import Cashflow.Proofs.Simulation.InStep

/-!
# The order of conditions

An event fires when all of its conditions hold, in whatever order it has them. So the conditions of
the events of a scenario may be put in another order (`Scenario.Reordered`): every run fires the same
places in the same months, with the same amounts, balances and histories, or stops with the same
fault (`writtenRun_reordered`).

The order is looked at in three places. The test of the conditions ends with the first that does not
hold, but it asks nothing that could fail (`Condition.testAll_eq_all`). The pass of an event depends
on whether there is a balance condition. The month of a yearly event is that of its first range,
which has to stay the first: the two events then come round together (`Event.Reordered.isOpen_eq`).
-/

namespace Cashflow

section Parts
variable {α : Type}

/-- The same event with its conditions in another order. A yearly event keeps its first range. -/
structure Event.Reordered (e e' : Event α) : Prop where
  name : e'.name = e.name
  type : e'.type = e.type
  amount : e'.amount = e.amount
  recurrence : e'.recurrence = e.recurrence
  metadata : e'.metadata = e.metadata
  conditions : e'.conditions.Perm e.conditions
  range : e.recurrence = Recurrence.yearly.name → e'.dateRange? = e.dateRange?

/-- The same scenario, but for the order of conditions in its events. -/
structure Scenario.Reordered (s s' : Scenario α) : Prop where
  name : s'.name = s.name
  events : List.Forall₂ Event.Reordered s.events s'.events

end Parts

variable {α : Type} [Amount α]

structure Entry.Reordered (t t' : Entry α) : Prop where
  amount : t'.amount = t.amount
  events : List.Forall₂ Event.Reordered t.events t'.events

structure Books.Reordered (b b' : Books α) : Prop where
  balance : b'.balance = b.balance
  cashflow : b.cashflow.Paired Eq Entry.Reordered b'.cashflow
  balances : b'.balances = b.balances
  history : b'.history = b.history

structure OpenMonth.Reordered (o o' : OpenMonth α) : Prop where
  month : o'.month = o.month
  shown : o'.shown = o.shown
  balance : o'.balance = o.balance
  history : o'.history = o.history
  entry : o.entry.Reordered o'.entry

/-! ## What is asked -/

namespace Event.Reordered

section Parts
variable {α : Type} {e e' : Event α} (h : e.Reordered e')
include h

theorem isIncome_eq : e'.isIncome = e.isIncome := by
  rw [isIncome, isIncome, h.type]

theorem isBalanceGated_eq : e'.isBalanceGated = e.isBalanceGated :=
  h.conditions.any_eq

theorem defect?_eq {r : Registry} (hr : ∀ k, r.hasCondition k = true) :
    r.defect? e' = r.defect? e := by
  have hnone : ∀ cs : List (Condition α), cs.find? (fun c => !r.hasCondition c.kind) = none :=
    fun cs => List.find?_eq_none.2 fun c _ => by rw [hr]; decide
  rw [Registry.defect?, Registry.defect?, hnone, hnone, h.name, h.type, h.recurrence]

end Parts

theorem signedAmount_eq {e e' : Event α} (h : e.Reordered e') :
    e'.signedAmount = e.signedAmount := by
  rw [signedAmount, signedAmount, h.isIncome_eq, h.amount]

end Event.Reordered

omit [Amount α] in
theorem firedIncome?_reordered {fired fired' : List (Event α)}
    (h : List.Forall₂ Event.Reordered fired fired') (name : String) :
    Option.Rel Event.Reordered (Condition.firedIncome? name fired)
      (Condition.firedIncome? name fired') := by
  induction h with
  | nil => exact .none
  | @cons e e' fired fired' he _ ih =>
    unfold Condition.firedIncome? at ih ⊢
    rw [List.find?_cons, List.find?_cons, he.name, he.isIncome_eq]
    split
    · exact .some he
    · exact ih

section Asked
variable {o o' : OpenMonth α} (ho : o.Reordered o')
include ho

theorem Condition.holds_reordered (c : Condition α) : c.holds o'.moment = c.holds o.moment := by
  cases c with
  | dateIs d => exact congrArg (·.sameMonth d) ho.month
  | dateInRange first last => exact congrArg (inRange first last) ho.month
  | networthIsAbove note x => exact congrArg (fun b => decide (x < b)) ho.shown
  | eventHappened name => exact congrArg (·.contains name) ho.history
  | incomeIsAbove name x =>
    have hfirst := firedIncome?_reordered ho.entry.events name
    have hfired : o.moment.fired = o.entry.events := rfl
    have hfired' : o'.moment.fired = o'.entry.events := rfl
    simp only [holds, hfired, hfired']
    generalize firedIncome? name o.entry.events = x at hfirst ⊢
    generalize firedIncome? name o'.entry.events = x' at hfirst ⊢
    cases hfirst with
    | none => rfl
    | some he => exact congrArg (fun y => decide (_ ≤ y)) he.amount

namespace Event.Reordered
variable {e e' : Event α} (h : e.Reordered e')
include h

theorem isOpen_eq (k : Recurrence) (hk : e.recurrence = k.name) :
    k.isOpen e' o'.moment = k.isOpen e o.moment := by
  have hhistory : o'.moment.history = o.moment.history := ho.history
  have hmonth : o'.moment.month = o.moment.month := ho.month
  cases k with
  | once => simp only [Recurrence.isOpen, hhistory, h.name]
  | monthly => rfl
  | yearly =>
    simp only [Recurrence.isOpen, Recurrence.yearlyOpen, h.range hk, hhistory, hmonth, h.name]
    rfl

theorem canFire_eq (r : Registry) : e'.canFire r o'.moment = e.canFire r o.moment := by
  rw [canFire, canFire, h.recurrence]
  cases hk : r.recurrence? e.recurrence with
  | none => rfl
  | some k =>
    have hname := Recurrence.eq_name_of_ofName? (Option.filter_eq_some_iff.1 hk).1
    exact congrArg (Except.mapError Fault.value) (h.isOpen_eq ho k hname)

theorem shouldFire_eq {r : Registry} (hr : ∀ k, r.hasCondition k = true) :
    e'.shouldFire r o'.moment = e.shouldFire r o.moment := by
  have hall : (e'.conditions.all fun c => c.holds o'.moment) =
      e.conditions.all fun c => c.holds o.moment := by
    rw [h.conditions.all_eq]
    simp only [Condition.holds_reordered ho]
  rw [shouldFire, shouldFire, h.canFire_eq ho, Condition.testAll_eq_all fun c _ => hr c.kind,
    Condition.testAll_eq_all fun c _ => hr c.kind, hall]

end Event.Reordered

end Asked

/-! ## In step -/

theorem Entry.Reordered.add {t t' : Entry α} (ht : t.Reordered t') {e e' : Event α}
    (h : e.Reordered e') : (t.add e).Reordered (t'.add e') where
  amount := by rw [Entry.add, Entry.add, ht.amount, h.signedAmount_eq]
  events := List.rel_append ht.events (.cons h .nil)

theorem inStep_reordered {r : Registry} (hr : ∀ k, r.hasCondition k = true) :
    InStep r (Event.Reordered (α := α)) Eq Books.Reordered OpenMonth.Reordered where
  gated h := h.isBalanceGated_eq
  defect h := h.defect?_eq hr
  opens := by
    rintro b b' m _ hb rfl
    exact ⟨rfl, hb.balance, hb.balance, hb.history, rfl, .nil⟩
  asks h ho := h.shouldFire_eq ho hr
  fire := by
    intro e e' o o' h ho
    refine ⟨ho.month, ho.shown, ?_, ?_, ho.entry.add h⟩
    · show o'.balance + e'.signedAmount = o.balance + e.signedAmount
      rw [ho.balance, h.signedAmount_eq]
    · show o'.history.record e'.name o'.month.key = o.history.record e.name o.month.key
      rw [ho.history, h.name, ho.month]
  refresh ho := ⟨ho.month, ho.balance, ho.balance, ho.history, ho.entry⟩
  closes := by
    intro b b' o o' hb ho
    have hkey : o.month.key = o'.month.key := congrArg Date.key ho.month.symm
    refine ⟨ho.balance, hb.cashflow.put biUnique_eq hkey ho.entry, ?_, ho.history⟩
    show b'.balances.put o'.month.key o'.balance = b.balances.put o.month.key o.balance
    rw [hb.balances, hkey, ho.balance]

/-! ## Runs -/

/-- The run is the same, but for the order of conditions in the events that it lists. -/
structure Run.Reordered (run run' : Run α) : Prop where
  cashflow : run.cashflow.Paired Eq Entry.Reordered run'.cashflow
  balances : run'.balances = run.balances
  history : run'.history = run.history
  opening : run'.opening = run.opening
  scenario : run'.scenario = run.scenario

/-- With the conditions of its events in another order a scenario fires the same places in the same
months, and returns the same but for this order, or the same fault. -/
theorem writtenRun_reordered {r : Registry} (hr : ∀ k, r.hasCondition k = true)
    {s s' : Scenario α} (hs : s.Reordered s') (first last : Date) (opening : α) :
    s'.placesFired r first last opening = s.placesFired r first last opening ∧
    (∀ fault, s.writtenRun r first last opening = .error fault →
      s'.writtenRun r first last opening = .error fault) ∧
    ∀ run, s.writtenRun r first last opening = .ok run →
      ∃ run', s'.writtenRun r first last opening = .ok run' ∧ run.Reordered run' := by
  have h := inStep_reordered (α := α) hr
  have hstart : Books.Reordered ({ balance := opening } : Books α) { balance := opening } :=
    ⟨rfl, .empty, rfl, rfl⟩
  have hmonths : List.Forall₂ Eq (Date.window first last) (Date.window first last) :=
    List.forall₂_same.2 fun _ _ => rfl
  have hplaces := h.placesFired hs.events hstart hmonths
  obtain ⟨hfault, hreturns⟩ :=
    (h.writtenBooks hs.events hstart (fun _ => rfl) first last).writtenRun
  refine ⟨?_, hfault, fun run hrun => ?_⟩
  · rw [← List.forall₂_eq_eq_eq]
    exact hplaces.flip.imp fun _ _ hp => Prod.ext hp.1.symm hp.2
  · obtain ⟨b, b', hb, rfl, hrun'⟩ := hreturns run hrun
    exact ⟨_, hrun', hb.cashflow, hb.balances, hb.history, rfl, hs.name⟩

/-- A course is taken when there is money for it, and brings a yearly stipend on the given
conditions. -/
def scholar (conditions : List (Condition Rat)) : Scenario Rat where
  name := "Scholar"
  events := [
    { name := "Salary", type := "income", amount := 250, recurrence := "monthly" },
    { name := "Course", type := "expense", amount := 300, recurrence := "once",
      conditions := [.networthIsAbove "Salary" 400] },
    { name := "Stipend", type := "income", amount := 90, recurrence := "yearly", conditions }]

/-- The stipend of a March, first asked for the course and then for the other range, or the other way
round. -/
theorem writtenRun_reordered_scholar :
    let asked : List (Condition Rat) :=
      [.eventHappened "Course", .dateInRange ⟨2025, 3, 1⟩ none, .dateInRange ⟨2024, 1, 1⟩ none]
    let asked' : List (Condition Rat) :=
      [.dateInRange ⟨2025, 3, 1⟩ none, .dateInRange ⟨2024, 1, 1⟩ none, .eventHappened "Course"]
    (scholar asked).Reordered (scholar asked') ∧
    (scholar asked').placesFired .full ⟨2025, 1, 15⟩ ⟨2025, 4, 2⟩ 0 =
      (scholar asked).placesFired .full ⟨2025, 1, 15⟩ ⟨2025, 4, 2⟩ 0 ∧
    ∃ run run', (scholar asked).writtenRun .full ⟨2025, 1, 15⟩ ⟨2025, 4, 2⟩ 0 = .ok run ∧
      (scholar asked').writtenRun .full ⟨2025, 1, 15⟩ ⟨2025, 4, 2⟩ 0 = .ok run' ∧
      run.Reordered run' ∧ run.history.get? "Stipend" = some ⟨"2025-03", "2025-03", 1⟩ := by
  intro asked asked'
  have hperm : asked'.Perm asked :=
    ((List.Perm.swap ..).cons _).trans (.swap ..)
  have hs : (scholar asked).Reordered (scholar asked') := by
    refine ⟨rfl, .cons ?_ (.cons ?_ (.cons ?_ .nil))⟩
    · exact ⟨rfl, rfl, rfl, rfl, rfl, .refl _, fun _ => rfl⟩
    · exact ⟨rfl, rfl, rfl, rfl, rfl, .refl _, fun _ => rfl⟩
    · exact ⟨rfl, rfl, rfl, rfl, rfl, hperm, fun _ => rfl⟩
  obtain ⟨hplaces, -, hreturns⟩ :=
    writtenRun_reordered Registry.hasCondition_full hs ⟨2025, 1, 15⟩ ⟨2025, 4, 2⟩ 0
  have hrun := writtenRun_of_nonneg (r := .full) (s := scholar asked) 0 rfl
    (show Date.HasMonth ⟨2025, 1, 15⟩ by decide) (show Date.HasMonth ⟨2025, 4, 2⟩ by decide)
    (by decide) (by decide +kernel)
  obtain ⟨run', hrun', hsame⟩ := hreturns _ hrun
  exact ⟨hs, hplaces, _, run', hrun, hrun', hsame, by decide +kernel⟩

/-- With another range for its first the stipend comes in another month. -/
example :
    let fired (conditions : List (Condition Rat)) := Books.placesFired .full
      (scholar conditions).events (Date.months ⟨2025, 1, 1⟩ ⟨2025, 3, 1⟩) { balance := 0 }
    (⟨2025, 3, 1⟩, 2) ∈ fired [.dateInRange ⟨2025, 3, 1⟩ none, .dateInRange ⟨2024, 1, 1⟩ none] ∧
      (⟨2025, 3, 1⟩, 2) ∉ fired [.dateInRange ⟨2024, 1, 1⟩ none, .dateInRange ⟨2025, 3, 1⟩ none] := by
  decide +kernel

end Cashflow

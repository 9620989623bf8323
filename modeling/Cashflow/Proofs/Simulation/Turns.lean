import Cashflow.Proofs.Simulation.Trace

/-!
# A turn, seen from the books and from the trace

Where the moment of a month shows the history of a trace `H` and the firings of the month in it, the
test that decides whether an event fires says of `H` what `Trace.Fires` says (`shouldFire_eq`). It
has no answer only where the trace is stuck: there the year of the last firing does not read back
from its key.

The balance that the moment shows counts for events with a condition about net worth only
(`Event.IgnoresBalance`).
-/

namespace Cashflow

/-- None of its conditions looks at the balance. -/
def Event.IgnoresBalance {α : Type} (e : Event α) : Prop :=
  ∀ c ∈ e.conditions, c.kind ≠ .networthIsAbove

instance {α : Type} (e : Event α) : Decidable e.IgnoresBalance :=
  inferInstanceAs (Decidable (∀ _ ∈ _, _))

theorem Event.ignoresBalance_of_not_gated {α : Type} {e : Event α}
    (h : e.isBalanceGated = false) : e.IgnoresBalance := by
  intro c hc hkind
  have hgated : e.isBalanceGated = true :=
    List.any_eq_true.2 ⟨c, hc, by rw [Condition.isBalance, hkind]; rfl⟩
  exact absurd hgated (by simp [h])

theorem not_gated_of_mem_firstPass {α : Type} {events : List (Event α)} {e : Event α}
    (h : e ∈ (passes events).1) : e.isBalanceGated = false := by
  simpa using (List.mem_filter.1 h).2

/-! ## Wired events -/

theorem Recurrence.eq_name_of_ofName? {word : String} {k : Recurrence} (h : ofName? word = some k) :
    word = k.name := by
  have := List.find?_some h
  exact (of_decide_eq_true this).symm

namespace Registry
variable {α : Type} {r : Registry}

theorem wire_eq_ok_iff {events : List (Event α)} :
    r.wire events = .ok () ↔ ∀ e ∈ events, r.defect? e = none := by
  rw [← List.findSome?_eq_none_iff, wire]
  cases events.findSome? r.defect? with
  | none => simp
  | some f => simp

theorem defect?_of_wire {events : List (Event α)} (h : r.wire events = .ok ()) :
    ∀ e ∈ events, r.defect? e = none :=
  wire_eq_ok_iff.1 h

/-- An event has no defect if its type is known and its recurrence and conditions have behaviour. -/
theorem defect?_eq_none {e : Event α} :
    r.defect? e = none ↔ e.type ∈ eventTypes ∧ (∃ k, r.recurrence? e.recurrence = some k) ∧
      ∀ c ∈ e.conditions, r.hasCondition c.kind = true := by
  have hconditions : ((e.conditions.find? fun c => !r.hasCondition c.kind).map fun c =>
      ConfigFault.condition c.kind.name (some e.name)) = none ↔
        ∀ c ∈ e.conditions, r.hasCondition c.kind = true := by
    simp [List.find?_eq_none]
  unfold defect?
  split
  · rename_i htype
    exact ⟨nofun, fun h => absurd h.1 (by simpa using htype)⟩
  · rename_i htype
    split
    · rename_i hgate
      rw [Option.isNone_iff_eq_none] at hgate
      simp [hgate]
    · rename_i hgate
      rw [Option.isNone_iff_eq_none] at hgate
      have hgate := Option.ne_none_iff_exists'.1 hgate
      exact hconditions.trans ⟨fun h => ⟨by simpa using htype, hgate, h⟩, fun h => h.2.2⟩

theorem isIncome_or_expense_of_defect? {e : Event α} (h : r.defect? e = none) :
    e.isIncome = true ∨ e.type = expenseType := by
  have htype := (defect?_eq_none.1 h).1
  simpa [eventTypes, Event.isIncome] using htype

theorem recurrence?_of_defect? {e : Event α} (h : r.defect? e = none) :
    ∃ k : Recurrence, r.recurrence? e.recurrence = some k ∧ e.recurrence = k.name := by
  obtain ⟨-, ⟨k, hk⟩, -⟩ := defect?_eq_none.1 h
  exact ⟨k, hk, Recurrence.eq_name_of_ofName? (Option.filter_eq_some_iff.1 hk).1⟩

theorem hasCondition_of_defect? {e : Event α} (h : r.defect? e = none) :
    ∀ c ∈ e.conditions, r.hasCondition c.kind = true :=
  (defect?_eq_none.1 h).2.2

end Registry

/-- Conditions whose kinds have behaviour are asked in vain or all hold; none is a fault. -/
theorem Condition.testAll_eq_all {α : Type} [Amount α] {r : Registry} {m : Moment α}
    {cs : List (Condition α)} (h : ∀ c ∈ cs, r.hasCondition c.kind = true) :
    testAll r m cs = .ok (cs.all fun c => c.holds m) := by
  induction cs with
  | nil => rfl
  | cons c cs ih =>
    obtain ⟨hc, hcs⟩ := List.forall_mem_cons.1 h
    have htest : c.test r m = .ok (c.holds m) := if_pos hc
    rw [testAll, htest, List.all_cons]
    cases c.holds m with
    | true => exact ih hcs
    | false => rfl

/-! ## Moments of a trace -/

namespace Trace
variable {α : Type}

/-- The moment shows the history of the trace and the firings of the month in it. -/
structure Shown (H : Trace α) (m : Moment α) : Prop where
  history : m.history = H.history
  fired : m.fired = (H.during m.month).map Turn.event
  foreign : m.foreign = false

theorem get?_history_of_getLast? {H : Trace α} {name : String} {u : Turn α}
    (h : (H.named name).getLast? = some u) :
    ∃ f, H.history.get? name = some f ∧ f.last = u.month.key := by
  rw [get?_history, h]
  cases hn : H.named name with
  | nil => simp [hn] at h
  | cons a r => exact ⟨_, rfl, rfl⟩

theorem get?_history_of_getLast?_eq_none {H : Trace α} {name : String}
    (h : (H.named name).getLast? = none) : H.history.get? name = none := by
  rw [get?_history, List.getLast?_eq_none_iff.1 h]
  rfl

namespace Shown
variable {H : Trace α} {m : Moment α} (h : H.Shown m)
include h

/-- The year of a firing reads back from its key, for the years from zero on. -/
theorem lastYear_eq {f : Firings} {d : Date} (hf : f.last = d.key) :
    m.lastYear f = if d.year < 0 then .error (.wholeText "") else .ok d.year := by
  rw [Moment.lastYear, h.foreign, if_neg Bool.false_ne_true, Firings.lastYear?, hf]
  by_cases hd : d.year < 0
  · rw [if_pos hd, Date.keyYear?_key_of_neg hd, Firings.noYear, hf, Date.keyHead_key_of_neg hd]
  · rw [if_neg hd, Date.keyYear?_key (Int.not_lt.1 hd)]

theorem yearlyOpen_eq {e : Event α} (he : e.recurrence = Recurrence.yearly.name) :
    Recurrence.yearlyOpen e m =
      if H.Stuck ⟨m.month, e⟩ then .error (.wholeText "")
      else .ok (decide (H.MayFire ⟨m.month, e⟩)) := by
  have hm : Recurrence.yearly.name ≠ Recurrence.monthly.name := by decide
  have ho : Recurrence.yearly.name ≠ Recurrence.once.name := by decide
  simp only [Recurrence.yearlyOpen, Stuck, MayFire, he, hm, ho, true_and, false_and, false_or]
  cases hr : e.dateRange? with
  | none => simp
  | some range =>
    by_cases hmonth : m.month.month = range.1.month
    · cases hl : (H.named e.name).getLast? with
      | none => simp [hmonth, h.history, get?_history_of_getLast?_eq_none hl]
      | some u =>
        obtain ⟨f, hf, hlast⟩ := get?_history_of_getLast? hl
        by_cases hu : u.month.year < 0
        · simp [hmonth, h.history, hf, h.lastYear_eq hlast, hu, Except.map]
        · simp [hmonth, h.history, hf, h.lastYear_eq hlast, hu, Except.map]
    · simp [hmonth]

theorem isOpen_eq {e : Event α} {k : Recurrence} (he : e.recurrence = k.name) :
    k.isOpen e m =
      if H.Stuck ⟨m.month, e⟩ then .error (.wholeText "")
      else .ok (decide (H.MayFire ⟨m.month, e⟩)) := by
  cases k with
  | once =>
    have hs : ¬ H.Stuck ⟨m.month, e⟩ := fun hs => absurd (he.symm.trans hs.1) (by decide)
    have hm : H.MayFire ⟨m.month, e⟩ ↔ ∀ u ∈ H, u.event.name ≠ e.name := by
      simp [MayFire, he, Recurrence.name]
    have hc : m.history.contains e.name = true ↔ ∃ u ∈ H, u.event.name = e.name := by
      rw [h.history, contains_history]
    rw [if_neg hs, Recurrence.isOpen]
    congr 1
    rw [Bool.eq_iff_iff, decide_eq_true_iff, hm, Bool.not_eq_true', ← Bool.not_eq_true, hc]
    push Not
    rfl
  | monthly =>
    have hs : ¬ H.Stuck ⟨m.month, e⟩ := fun hs => absurd (he.symm.trans hs.1) (by decide)
    rw [if_neg hs, decide_eq_true (show H.MayFire ⟨m.month, e⟩ from Or.inl he)]
    rfl
  | yearly => exact h.yearlyOpen_eq he

theorem firedIncome?_eq (name : String) :
    Condition.firedIncome? name m.fired =
      ((H.during m.month).find? fun u => u.event.name = name && u.event.isIncome).map
        Turn.event := by
  rw [Condition.firedIncome?, h.fired, List.find?_map]
  rfl

section Conditions
variable [Amount α] {opening : α}

theorem holds_iff {c : Condition α}
    (hb : c.kind = .networthIsAbove → m.balance = H.balance opening) :
    c.holds m = true ↔ Holds opening H m.month c := by
  cases c with
  | dateIs d => simp [Condition.holds, Holds, Date.sameMonth]
  | dateInRange first last => simp [Condition.holds, Holds, Condition.inRange, Date.within]
  | networthIsAbove note x =>
    rw [Condition.holds, hb rfl, decide_eq_true_iff]
    rfl
  | eventHappened name =>
    rw [Condition.holds, h.history, contains_history]
    rfl
  | incomeIsAbove name x =>
    rw [Condition.holds, h.firedIncome?_eq, Holds]
    cases (H.during m.month).find? fun u => u.event.name = name && u.event.isIncome with
    | none => simp
    | some u => simp

theorem testAll_eq {r : Registry} {cs : List (Condition α)}
    (hr : ∀ c ∈ cs, r.hasCondition c.kind = true)
    (hb : ∀ c ∈ cs, c.kind = .networthIsAbove → m.balance = H.balance opening) :
    Condition.testAll r m cs = .ok (decide (∀ c ∈ cs, Holds opening H m.month c)) := by
  rw [Condition.testAll_eq_all hr]
  congr 1
  rw [Bool.eq_iff_iff, List.all_eq_true, decide_eq_true_iff]
  exact forall₂_congr fun c hc => h.holds_iff (hb c hc)

theorem shouldFire_eq {r : Registry} {e : Event α} (hr : r.defect? e = none)
    (hb : ¬ e.IgnoresBalance → m.balance = H.balance opening) :
    e.shouldFire r m =
      if H.Stuck ⟨m.month, e⟩ then .error (.value (.wholeText ""))
      else .ok (decide (Fires opening H ⟨m.month, e⟩)) := by
  obtain ⟨k, hk, he⟩ := Registry.recurrence?_of_defect? hr
  have hcan : e.canFire r m = (k.isOpen e m).mapError .value := by
    rw [Event.canFire, hk]
  have htest : Condition.testAll r m e.conditions =
      .ok (decide (∀ c ∈ e.conditions, Holds opening H m.month c)) :=
    h.testAll_eq (Registry.hasCondition_of_defect? hr) fun c hc hkind =>
      hb fun hfree => hfree c hc hkind
  rw [Event.shouldFire, hcan, h.isOpen_eq he]
  by_cases hs : H.Stuck ⟨m.month, e⟩
  · rw [if_pos hs, if_pos hs]
    rfl
  · rw [if_neg hs, if_neg hs]
    by_cases hm : H.MayFire ⟨m.month, e⟩
    · simp only [hm, decide_true, Except.mapError, bind, Except.bind, if_true, htest, Fires,
        true_and]
    · simp [hm, Except.mapError, bind, Except.bind, Fires]

end Conditions

end Shown

end Trace

end Cashflow

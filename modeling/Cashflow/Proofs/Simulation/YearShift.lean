import Cashflow.Proofs.Calendar.Years
import Cashflow.Proofs.Paired
import Cashflow.Proofs.Simulation.InStep

/-!
# Runs moved by years

A window and all dates in conditions may be moved by whole years, as long as the window keeps to the
years from 0 to 2999: the same places fire in the moved months, and the ledger, the balances and the
histories are the same but for the keys of the months (`writtenRun_addYears`).

The moved run is in step with the first (`inStep_addYears`). Keys are not moved as texts: the
histories of the two runs are related entry by entry, and what a yearly event reads back from them is
the year of a key and the moved year of the moved key.
-/

namespace Cashflow
open Date (MovedKey biUnique_movedKey)

/-! ## Other years -/

section Moved
variable {α : Type}

def Condition.addYears (k : Int) : Condition α → Condition α
  | .dateIs d => .dateIs (d.addYears k)
  | .dateInRange first last => .dateInRange (first.addYears k) (last.map (Date.addYears k))
  | .networthIsAbove note x => .networthIsAbove note x
  | .eventHappened name => .eventHappened name
  | .incomeIsAbove name x => .incomeIsAbove name x

def Event.addYears (k : Int) (e : Event α) : Event α :=
  { e with conditions := e.conditions.map (Condition.addYears k) }

def Scenario.addYears (k : Int) (s : Scenario α) : Scenario α :=
  { s with events := s.events.map (Event.addYears k) }

end Moved

variable {α : Type} [Amount α]

def Entry.addYears (k : Int) (t : Entry α) : Entry α := ⟨t.amount, t.events.map (Event.addYears k)⟩

/-- The firings are the same in moved months. -/
structure Firings.Moved (k : Int) (f f' : Firings) : Prop where
  first : MovedKey k f.first f'.first
  last : MovedKey k f.last f'.last
  count : f'.count = f.count

/-- The histories know the same names, in the same order, with the same firings in moved months. -/
def History.Moved (k : Int) (h h' : History) : Prop := h.Paired Eq (Firings.Moved k) h'

/-- The books are the same in moved months. -/
structure Books.Moved (k : Int) (b b' : Books α) : Prop where
  balance : b'.balance = b.balance
  cashflow : b.cashflow.Paired (MovedKey k) (fun t t' => t' = t.addYears k) b'.cashflow
  balances : b.balances.Paired (MovedKey k) Eq b'.balances
  history : b.history.Moved k b'.history

/-- The months in progress are the same, but for being moved. -/
structure OpenMonth.Moved (k : Int) (o o' : OpenMonth α) : Prop where
  movable : o.month.Movable k
  month : o'.month = o.month.addYears k
  shown : o'.shown = o.shown
  balance : o'.balance = o.balance
  history : o.history.Moved k o'.history
  entry : o'.entry = o.entry.addYears k

/-! ## Histories -/

namespace History.Moved
variable {k : Int} {h h' : History} (hh : h.Moved k h')
include hh

theorem get? (name : String) : Option.Rel (Firings.Moved k) (h.get? name) (h'.get? name) :=
  Keyed.Paired.get? hh biUnique_eq rfl

theorem contains (name : String) : h'.contains name = h.contains name :=
  Keyed.Paired.contains hh biUnique_eq rfl

theorem put (name : String) {f f' : Firings} (hf : f.Moved k f') :
    History.Moved k (h.put name f) (h'.put name f') :=
  Keyed.Paired.put hh biUnique_eq rfl hf

theorem record (name : String) {key key' : String} (hkey : MovedKey k key key') :
    History.Moved k (h.record name key) (h'.record name key') := by
  have hget := hh.get? name
  rw [History.record, History.record]
  generalize h.get? name = x at hget ⊢
  generalize h'.get? name = x' at hget ⊢
  cases hget with
  | none => exact hh.put name ⟨hkey, hkey, rfl⟩
  | some hf => exact hh.put name ⟨hf.first, hkey, congrArg (· + 1) hf.count⟩

end History.Moved

/-! ## What is asked -/

omit [Amount α] in
theorem Condition.kind_addYears (k : Int) (c : Condition α) : (c.addYears k).kind = c.kind := by
  cases c <;> rfl

omit [Amount α] in
theorem Event.dateRange?_addYears (k : Int) (e : Event α) :
    (e.addYears k).dateRange? =
      e.dateRange?.map fun p => (p.1.addYears k, p.2.map (Date.addYears k)) := by
  have hrange : ∀ c : Condition α, (c.addYears k).range? =
      c.range?.map fun p => (p.1.addYears k, p.2.map (Date.addYears k)) := fun c => by
    cases c <;> rfl
  show (e.conditions.map (Condition.addYears k)).findSome? Condition.range? = _
  rw [Event.dateRange?]
  induction e.conditions with
  | nil => rfl
  | cons c cs ih =>
    rw [List.map_cons, List.findSome?_cons, List.findSome?_cons, hrange]
    cases c.range? with
    | none => exact ih
    | some p => rfl

/-- Bounds that are there move with the month; the far future is beyond it before and after. -/
theorem inRange_addYears {k : Int} {m : Date} (hm : m.Movable k) (first : Date)
    (last : Option Date) :
    Condition.inRange (first.addYears k) (last.map (Date.addYears k)) (m.addYears k) =
      Condition.inRange first last m := by
  have hfirst : (first.addYears k).startOfMonth ≤ (m.addYears k).startOfMonth ↔
      first.startOfMonth ≤ m.startOfMonth :=
    Date.addYears_le_iff k first.startOfMonth m.startOfMonth
  rw [Condition.inRange, Condition.inRange, Date.within, Date.within]
  congr 1
  · exact decide_eq_decide.2 hfirst
  · cases last with
    | none =>
      have hmoved := Date.startOfMonth_le_farFuture (m := m.addYears k) hm.hasMonth hm.moved_le
      have hthere := Date.startOfMonth_le_farFuture hm.hasMonth hm.le
      exact decide_eq_decide.2 (iff_of_true hmoved hthere)
    | some d => exact decide_eq_decide.2 (Date.addYears_le_iff k m.startOfMonth d.startOfMonth)

section Asked
variable {k : Int} {o o' : OpenMonth α} (h : o.Moved k o')
include h

theorem yearlyOpen_addYears (e : Event α) :
    Recurrence.yearlyOpen (e.addYears k) o'.moment = Recurrence.yearlyOpen e o.moment := by
  have hmonth : o'.moment.month = o.month.addYears k := h.month
  have hget : Option.Rel (Firings.Moved k) (o.moment.history.get? e.name)
      (o'.moment.history.get? (e.addYears k).name) := h.history.get? e.name
  rw [Recurrence.yearlyOpen, Recurrence.yearlyOpen, Event.dateRange?_addYears, hmonth]
  cases e.dateRange? with
  | none => rfl
  | some range =>
    generalize o.moment.history.get? e.name = x at hget ⊢
    generalize o'.moment.history.get? (e.addYears k).name = x' at hget ⊢
    cases hget with
    | none => rfl
    | @some f f' hf =>
      obtain ⟨y, hy, hy'⟩ := hf.last.years
      have hread : o.moment.lastYear f = .ok y := by
        rw [Moment.lastYear, Firings.lastYear?, hy]
        rfl
      have hread' : o'.moment.lastYear f' = .ok (y + k) := by
        rw [Moment.lastYear, Firings.lastYear?, hy']
        rfl
      have hyear : decide (y + k ≠ o.month.year + k) = decide (y ≠ o.month.year) :=
        decide_eq_decide.2 (not_congr (Int.add_left_inj k))
      simp only [hread, hread', Except.map]
      exact congrArg (fun b => if o.month.month ≠ range.1.month then Except.ok false
        else Except.ok b) hyear

theorem isOpen_addYears (e : Event α) (p : Recurrence) :
    p.isOpen (e.addYears k) o'.moment = p.isOpen e o.moment := by
  cases p with
  | once => exact congrArg (fun b => Except.ok !b) (h.history.contains e.name)
  | monthly => rfl
  | yearly => exact yearlyOpen_addYears h e

theorem Condition.holds_addYears (c : Condition α) :
    (c.addYears k).holds o'.moment = c.holds o.moment := by
  have hmonth : o'.moment.month = o.month.addYears k := h.month
  have hshown : o'.moment.balance = o.moment.balance := h.shown
  have hfired : o'.moment.fired = o.moment.fired.map (Event.addYears k) :=
    congrArg Entry.events h.entry
  cases c with
  | dateIs d =>
    simp only [addYears, holds, hmonth]
    exact Date.sameMonth_addYears k o.month d
  | dateInRange first last =>
    simp only [addYears, holds, hmonth]
    exact inRange_addYears h.movable first last
  | networthIsAbove note x => simp only [addYears, holds, hshown]
  | eventHappened name => exact h.history.contains name
  | incomeIsAbove name x =>
    have hfirst : firedIncome? name (o.moment.fired.map (Event.addYears k)) =
        (firedIncome? name o.moment.fired).map (Event.addYears k) :=
      firedIncome?_map (g := Event.addYears k) (fun _ => rfl) (fun _ => rfl) name o.moment.fired
    simp only [addYears, holds, hfired, hfirst]
    cases firedIncome? name o.moment.fired <;> rfl

end Asked

/-! ## In step -/

theorem Entry.add_addYears (k : Int) (t : Entry α) (e : Event α) :
    (t.addYears k).add (e.addYears k) = (t.add e).addYears k := by
  have hevents : t.events.map (Event.addYears k) ++ [e.addYears k] =
      (t.events ++ [e]).map (Event.addYears k) := by
    rw [List.map_append, List.map_singleton]
  exact congrArg (Entry.mk (t.amount + e.signedAmount)) hevents

theorem OpenMonth.Moved.key {k : Int} {o o' : OpenMonth α} (h : o.Moved k o') :
    MovedKey k o.month.key o'.month.key := by
  rw [h.month]
  exact h.movable.movedKey

theorem inStep_addYears (r : Registry) (k : Int) :
    InStep r (fun e e' => e' = e.addYears k) (fun m m' => m.Movable k ∧ m' = m.addYears k)
      (Books.Moved (α := α) k) (OpenMonth.Moved k) where
  gated := by
    rintro e _ rfl
    exact isBalanceGated_eq_of_map (Condition.kind_addYears k) rfl
  defect := by
    rintro e _ rfl
    exact defect?_eq_of_map (Condition.kind_addYears k) rfl rfl rfl rfl
  opens := by
    rintro b b' m _ hb ⟨hm, rfl⟩
    exact ⟨hm, rfl, hb.balance, hb.balance, hb.history, rfl⟩
  asks := by
    rintro e _ o o' rfl ho
    exact shouldFire_eq_of_map (Condition.kind_addYears k) rfl rfl (isOpen_addYears ho e)
      fun c _ => Condition.holds_addYears ho c
  fire := by
    rintro e _ o o' rfl ho
    refine ⟨ho.movable, ho.month, ho.shown, ?_, ho.history.record e.name ho.key, ?_⟩
    · exact congrArg (· + e.signedAmount) ho.balance
    · exact (congrArg (Entry.add · _) ho.entry).trans (o.entry.add_addYears k e)
  refresh := by
    rintro o o' ho
    exact ⟨ho.movable, ho.month, ho.balance, ho.balance, ho.history, ho.entry⟩
  closes := by
    rintro b b' o o' hb ho
    exact ⟨ho.balance, hb.cashflow.put (biUnique_movedKey k) ho.key ho.entry,
      hb.balances.put (biUnique_movedKey k) ho.key ho.balance.symm, ho.history⟩

/-! ## Moved runs -/

/-- The run is the same in moved months. -/
structure Run.Moved (k : Int) (run run' : Run α) : Prop where
  cashflow : run.cashflow.Paired (MovedKey k) (fun t t' => t' = t.addYears k) run'.cashflow
  balances : run.balances.Paired (MovedKey k) Eq run'.balances
  history : run.history.Moved k run'.history
  opening : run'.opening = run.opening

/-- In moved months the same places fire. A run whose events are wired returns before and after the
move, and it returns the same in moved months; otherwise both runs end with the same fault. -/
theorem writtenRun_addYears (r : Registry) (s : Scenario α) {first last : Date} (opening : α)
    {k : Int} (hf : first.HasMonth) (hl : last.HasMonth) (hy : 0 ≤ first.year)
    (hy' : last.year ≤ 2999) (hk : 0 ≤ first.year + k) (hk' : last.year + k ≤ 2999) :
    (s.addYears k).placesFired r (first.addYears k) (last.addYears k) opening =
      (s.placesFired r first last opening).map (fun p => (p.1.addYears k, p.2)) ∧
    (∀ fault, s.writtenRun r first last opening = .error fault →
      (s.addYears k).writtenRun r (first.addYears k) (last.addYears k) opening = .error fault) ∧
    (r.wire s.events = .ok () →
      ∃ run run', s.writtenRun r first last opening = .ok run ∧
        (s.addYears k).writtenRun r (first.addYears k) (last.addYears k) opening = .ok run' ∧
        run.Moved k run') := by
  have h := inStep_addYears (α := α) r k
  have hevents : List.Forall₂ (fun e e' => e' = e.addYears k) s.events (s.addYears k).events :=
    List.forall₂_map_right_iff.2 (List.forall₂_same.2 fun _ _ => rfl)
  have hmonths : List.Forall₂ (fun m m' => m.Movable k ∧ m' = m.addYears k)
      (Date.window first last) (Date.window (first.addYears k) (last.addYears k)) := by
    rw [Date.window_addYears, List.forall₂_map_right_iff, List.forall₂_same]
    exact fun m hm => ⟨Date.movable_of_mem_window hf hl hy hy' hk hk' hm, rfl⟩
  have hstart : Books.Moved k ({ balance := opening } : Books α) { balance := opening } :=
    ⟨rfl, .empty, .empty, .empty⟩
  have hwritten := Date.reachesUnwritten_eq_false hf hy hy'
  have hwritten' : Date.reachesUnwritten (first.addYears k) (last.addYears k) = false :=
    Date.reachesUnwritten_eq_false hf hk hk'
  have hrun := h.books hevents hstart hmonths
  rw [← Scenario.writtenBooks_eq r s opening hwritten,
    ← Scenario.writtenBooks_eq r (s.addYears k) opening hwritten'] at hrun
  refine ⟨?_, hrun.writtenRun.1, fun hw => ?_⟩
  · have hplaces := h.placesFired hevents hstart hmonths
    exact eq_map_of_forall₂ (hplaces.imp fun _ _ hp => Prod.ext hp.1.2 hp.2)
  · have hreturns := writtenRun_of_nonneg opening hw hf hl hy hwritten
    obtain ⟨b, b', hb, hrun, hrun'⟩ := hrun.writtenRun.2 _ hreturns
    refine ⟨_, _, hreturns, hrun', ?_⟩
    rw [hrun]
    exact ⟨hb.cashflow, hb.balances, hb.history, rfl⟩

/-- From the year nine into the year eleven instead of from 2024 into 2026. The bonus comes round in
the moved years. -/
theorem writtenRun_addYears_household :
    ∃ run run',
      household.writtenRun .full ⟨2024, 12, 15⟩ ⟨2026, 3, 2⟩ 0 = .ok run ∧
      (household.addYears (-2015)).writtenRun .full ⟨9, 12, 15⟩ ⟨11, 3, 2⟩ 0 = .ok run' ∧
      run.Moved (-2015) run' ∧
      run.history.get? "Bonus" = some ⟨"2025-03", "2026-03", 2⟩ ∧
      run'.history.get? "Bonus" = some ⟨"10-03", "11-03", 2⟩ := by
  have hf : Date.HasMonth ⟨2024, 12, 15⟩ := by decide
  have hl : Date.HasMonth ⟨2026, 3, 2⟩ := by decide
  obtain ⟨-, -, hruns⟩ := writtenRun_addYears (k := -2015) .full household 0 hf hl
    (by decide) (by decide) (by decide) (by decide)
  obtain ⟨run, run', hrun, hrun', hmoved⟩ := hruns rfl
  have hthere := writtenRun_of_nonneg (s := household) (r := .full) 0 rfl hf hl (by decide)
    (by decide +kernel)
  have hmovedRun := writtenRun_of_nonneg (s := household.addYears (-2015)) (r := .full) 0 rfl
    (show Date.HasMonth ⟨9, 12, 15⟩ by decide) (show Date.HasMonth ⟨11, 3, 2⟩ by decide)
    (by decide) (by decide +kernel)
  refine ⟨run, run', hrun, hrun', hmoved, ?_, ?_⟩
  · rw [Except.ok.inj (hrun.symm.trans hthere)]
    decide +kernel
  · rw [Except.ok.inj (hrun'.symm.trans hmovedRun)]
    decide +kernel

end Cashflow

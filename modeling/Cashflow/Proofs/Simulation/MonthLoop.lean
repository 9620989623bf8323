import Mathlib.Data.List.TakeWhile
import Cashflow.Proofs.Calendar.Unwritten
import Cashflow.Proofs.Ledger.Conservation

/-!
# The month loop

A run is a loop: it evaluates a month, goes to the next, and ends when it has passed the last month,
or earlier with a fault, if only because the year of a month is too long to be written. It always
ends, whatever numbers its dates are made of: the months that it comes to are counted beforehand
(`Scenario.writtenBooks_eq_loop`, with `Date.rounds`).

Between calendar months a run that returns has its months from the closed form: the ledger and the
balances have the keys of the window, each once (`Run.Covers`, `monthLoop_covers`).
-/

namespace Cashflow
variable {α : Type} [Amount α]

/-- A round of the loop. The month has to be written before it is evaluated. -/
def Books.evaluateWrittenMonth (r : Registry) (events : List (Event α)) (b : Books α)
    (month : Date) : Except (Halted (Books α)) (Books α) :=
  if month.isUnwritten then .error ⟨.value .longNumber, b⟩
  else b.evaluateMonth r (passes events).1 (passes events).2 month

/-- Rounds go well up to the first month that is not written. -/
theorem Books.foldlM_evaluateWrittenMonth (r : Registry) (events : List (Event α)) (b : Books α)
    (months : List Date) :
    months.foldlM (evaluateWrittenMonth r events) b =
      b.evaluateMonths r events (months.takeWhile fun m => !m.isUnwritten) >>= fun b =>
        if months.any Date.isUnwritten then .error ⟨.value .longNumber, b⟩ else .ok b := by
  induction months generalizing b with
  | nil => rfl
  | cons m months ih =>
    rw [List.foldlM_cons, evaluateWrittenMonth, List.any_cons]
    cases hm : m.isUnwritten with
    | true =>
      rw [if_pos rfl, List.takeWhile_cons_of_neg (by simp [hm])]
      rfl
    | false =>
      rw [if_neg Bool.false_ne_true, List.takeWhile_cons_of_pos (by simp [hm]), Bool.false_or]
      unfold evaluateMonths
      rw [List.foldlM_cons]
      cases b.evaluateMonth r (passes events).1 (passes events).2 m with
      | error x => rfl
      | ok b => exact ih b

/-- What a run knows beforehand of months that are not written is what its loop meets. -/
theorem Scenario.writtenBooks_eq_loop (r : Registry) (s : Scenario α) (first last : Date)
    (opening : α) :
    s.writtenBooks r first last opening =
      s.wiredBooks r opening fun b =>
        ((List.range (Date.rounds first last)).map first.afterRounds).foldlM
          (Books.evaluateWrittenMonth r s.events) b := by
  rw [← Date.window_eq_afterRounds, writtenBooks]
  simp only [Books.foldlM_evaluateWrittenMonth]
  cases h : Date.reachesUnwritten first last with
  | true =>
    have hany : (Date.window first last).any Date.isUnwritten = true :=
      List.any_eq_true.2 (Date.reachesUnwritten_iff.1 h)
    rw [if_pos rfl, Date.monthsBeforeUnwritten_eq h, hany, wiredBooks, wiredBooks]
    cases r.wire s.events <;> rfl
  | false =>
    have hall : ∀ m ∈ Date.window first last, (!m.isUnwritten) = true := fun m hm => by
      rw [Date.isUnwritten_of_mem_window h hm]
      rfl
    have hany : (Date.window first last).any Date.isUnwritten = false :=
      List.any_eq_false.2 fun m hm => by rw [Date.isUnwritten_of_mem_window h hm]; decide
    rw [if_neg Bool.false_ne_true, hany, List.takeWhile_eq_self_iff.2 hall, books]
    simp only [Books.evaluateWindow_eq, Bool.false_eq_true, if_false]
    exact congrArg (s.wiredBooks r opening) (funext fun b => (bind_pure _).symm)

/-! ## Windows between calendar months -/

/-- The months of the run are those from `first` to `last`: in order, each once, and all of them. -/
structure Run.Covers (run : Run α) (first last : Date) : Prop where
  cashflow : run.cashflow.keys = Date.keys first last
  balances : run.balances.keys = Date.keys first last
  once : (Date.keys first last).Nodup
  count : run.balances.keys.length = Date.monthsBetween first last
  complete : ∀ d : Date, d.HasMonth →
    (d.key ∈ run.balances.keys ↔ first.index ≤ d.index ∧ d.index ≤ last.index)
  before : last.startOfMonth < first.startOfMonth → run.balances.keys = []

theorem Run.covers_of_writtenRun {r : Registry} {s : Scenario α} {first last : Date} {opening : α}
    {run : Run α} (hf : first.HasMonth) (hl : last.HasMonth)
    (h : s.writtenRun r first last opening = .ok run) : run.Covers first last := by
  obtain ⟨-, hmonths, hledger⟩ := conserves_of_writtenRun hf hl h
  have hbalances : run.balances.keys = Date.keys first last := hmonths
  refine ⟨hledger.months.trans hbalances, hbalances, Date.nodup_keys, ?_, fun d hd => ?_,
    fun hlt => ?_⟩
  · rw [hbalances, Date.length_keys]
  · rw [hbalances, Date.key_mem_keys_iff hd]
  · rw [hbalances, Date.keys_eq_nil hf hl hlt]

/-- The loop of a run ends: after a number of rounds it has passed its last month, and not before,
and the run evaluates the months of these rounds in turn, up to the first fault. Between calendar
months they are as many as the months between, and a run that returns covers the window. -/
theorem monthLoop_covers (r : Registry) (s : Scenario α) (first last : Date) (opening : α) :
    (∀ i < Date.rounds first last, first.afterRounds i ≤ last.startOfMonth) ∧
    last.startOfMonth < first.afterRounds (Date.rounds first last) ∧
    (s.writtenBooks r first last opening =
      s.wiredBooks r opening fun b =>
        ((List.range (Date.rounds first last)).map first.afterRounds).foldlM
          (Books.evaluateWrittenMonth r s.events) b) ∧
    (first.HasMonth → last.HasMonth →
      Date.rounds first last = Date.monthsBetween first last ∧
      ∀ run, s.writtenRun r first last opening = .ok run → run.Covers first last) :=
  ⟨fun _ => Date.le_of_lt_rounds, Date.lt_afterRounds_rounds, s.writtenBooks_eq_loop r first last opening,
    fun hf hl => ⟨Date.rounds_eq_monthsBetween hf hl, fun _ => Run.covers_of_writtenRun hf hl⟩⟩

/-- Four months around the end of the year zero. -/
theorem monthLoop_covers_household :
    ∃ run, household.writtenRun .full ⟨0, 11, 15⟩ ⟨1, 2, 1⟩ 0 = .ok run ∧
      run.Covers ⟨0, 11, 15⟩ ⟨1, 2, 1⟩ ∧
      Date.keys ⟨0, 11, 15⟩ ⟨1, 2, 1⟩ = ["0-11", "0-12", "1-01", "1-02"] := by
  have hf : Date.HasMonth ⟨0, 11, 15⟩ := by decide
  have hl : Date.HasMonth ⟨1, 2, 1⟩ := by decide
  have hrun := writtenRun_of_nonneg (r := .full) (s := household) 0 rfl hf hl (by decide)
    (by decide +kernel)
  obtain ⟨-, -, -, hcalendar⟩ := monthLoop_covers .full household ⟨0, 11, 15⟩ ⟨1, 2, 1⟩ 0
  exact ⟨_, hrun, (hcalendar hf hl).2 _ hrun, by decide +kernel⟩

/-- From a month that is none of the calendar the loop goes on to one that is. -/
example :
    (List.range (Date.rounds ⟨2025, 14, 9⟩ ⟨2026, 40, 1⟩)).map (Date.afterRounds ⟨2025, 14, 9⟩) =
      ⟨2025, 14, 1⟩ :: (List.range 10).map fun i : Nat => ⟨2026, i + 3, 1⟩ := by
  decide

end Cashflow

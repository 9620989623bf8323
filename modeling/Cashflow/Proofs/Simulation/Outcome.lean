import Cashflow.Proofs.Simulation.Follows

/-!
# The outcome of a run

* `books_eq_trace` : a run of wired events that starts in the year zero or later leaves the books
  of its trace;
* `writtenBooks_ok_iff` : a run of wired events has an outcome exactly when its months are written
  and no turn is stuck. It is stuck where a yearly event comes round after its name last fired in a
  year below zero, because that year does not read back from the month's key.
-/

namespace Cashflow

namespace Agrees
variable {σ τ ρ : Type} {R : σ → τ → Prop} {x : Option σ} {y : Except (Halted ρ) τ}

theorem ok_iff (h : Agrees R x y) : (∃ t, y = .ok t) ↔ ∃ s, x = some s := by
  cases h with
  | done h => exact ⟨fun _ => ⟨_, rfl⟩, fun _ => ⟨_, rfl⟩⟩
  | stuck h =>
    constructor
    · rintro ⟨_, ⟨⟩⟩
    · rintro ⟨_, ⟨⟩⟩

theorem fault_eq {e : Halted ρ} (h : Agrees R x (.error e)) : e.fault = .value (.wholeText "") := by
  cases h with
  | stuck h => exact h

end Agrees

variable {α : Type} [Amount α]

namespace Trace
variable {opening : α}

/-- No turn is stuck when it comes. -/
def NeverStuck (opening : α) (ts : List (Turn α)) : Prop :=
  ∀ before t after, ts = before ++ t :: after → ¬ (ofTurns opening before).Stuck t

theorem foldlM_visit?_iff {H : Trace α} {ts : List (Turn α)} :
    (∃ K, ts.foldlM (visit? opening) H = some K) ↔
      ∀ before t after, ts = before ++ t :: after → ¬ Stuck (before.foldl (visit opening) H) t := by
  induction ts generalizing H with
  | nil => exact ⟨fun _ before t after h => by simp at h, fun _ => ⟨H, rfl⟩⟩
  | cons t ts ih =>
    rw [List.foldlM_cons]
    by_cases hs : H.Stuck t
    · rw [visit?, if_pos hs]
      constructor
      · rintro ⟨_, ⟨⟩⟩
      · exact fun h => absurd hs (h [] t ts rfl)
    · rw [visit?, if_neg hs]
      refine ih.trans ⟨fun h before u after he => ?_, fun h before u after he => ?_⟩
      · rcases List.cons_eq_append_iff.1 he with ⟨rfl, hu⟩ | ⟨rest, rfl, hu⟩
        · rw [(List.cons.inj hu).1]
          exact hs
        · exact h rest u after hu
      · exact h (t :: before) u after (congrArg (t :: ·) he)

omit [Amount α] in
theorem not_stuck_of_nonneg {H : Trace α} (h : ∀ u ∈ H, 0 ≤ u.month.year) (t : Turn α) :
    ¬ H.Stuck t := by
  rintro ⟨-, range, -, -, u, hu, hneg⟩
  have := h u (List.mem_filter.1 (List.mem_of_mem_getLast? hu)).1
  omega

theorem neverStuck_of_nonneg {first last : Date} (events : List (Event α)) (hf : first.HasMonth)
    (hy : 0 ≤ first.year) : NeverStuck opening (turns (Date.months first last) events) := by
  intro before t after he
  refine not_stuck_of_nonneg (fun u hu => ?_) t
  have hmem : u ∈ turns (Date.months first last) events := by
    rw [he]
    exact List.mem_append_left _ (mem_of_mem_ofTurns hu)
  have := Date.year_le_of_mem_months hf (mem_turns.1 hmem).1
  omega

end Trace

open Trace

section Runs
variable {r : Registry} {s : Scenario α} {first last : Date} (opening : α)
  (hw : r.wire s.events = .ok ()) (hf : first.HasMonth) (hl : last.HasMonth)
include hw hf hl

theorem books_agrees :
    Agrees
      (fun H b => H = ofTurns opening (turns (Date.months first last) s.events) ∧
        b = H.books opening (Date.months first last))
      ((turns (Date.months first last) s.events).foldlM (visit? opening) [])
      (s.books r first last opening) := by
  rw [Scenario.books, Scenario.wiredBooks, hw]
  show Agrees _ _ (Books.evaluateWindow _ _ _ _ _)
  rw [Books.evaluateWindow_eq, Date.window_eq_months hf hl]
  exact evaluateMonths_agrees (Registry.defect?_of_wire hw) opening Date.months_ascend

theorem books_ok_iff :
    (∃ b, s.books r first last opening = .ok b) ↔
      NeverStuck opening (turns (Date.months first last) s.events) :=
  (books_agrees opening hw hf hl).ok_iff.trans foldlM_visit?_iff

theorem eq_of_books_ok {b : Books α} (hb : s.books r first last opening = .ok b) :
    b = (ofTurns opening (turns (Date.months first last) s.events)).books opening
      (Date.months first last) := by
  have h := books_agrees opening hw hf hl
  rw [hb] at h
  generalize (turns (Date.months first last) s.events).foldlM (visit? opening) [] = x at h
  cases h with
  | done h => exact h.2.trans (by rw [h.1])

end Runs

/-- The books of a run are those of its trace: of the turns of its months that fire, each after the
firings before it. -/
theorem books_eq_trace (r : Registry) (s : Scenario α) {first last : Date} (opening : α)
    (hw : r.wire s.events = .ok ()) (hf : first.HasMonth) (hl : last.HasMonth)
    (hy : 0 ≤ first.year) :
    let months := Date.months first last
    let H := ofTurns opening (turns months s.events)
    s.books r first last opening = .ok (H.books opening months) ∧
      (Date.reachesUnwritten first last = false →
        s.writtenBooks r first last opening = .ok (H.books opening months)) := by
  intro months H
  obtain ⟨b, hb⟩ := (books_ok_iff opening hw hf hl).2
    (neverStuck_of_nonneg s.events hf hy)
  have h : s.books r first last opening = .ok (H.books opening months) := by
    rw [hb, eq_of_books_ok opening hw hf hl hb]
  exact ⟨h, fun hwritten => by rw [Scenario.writtenBooks_eq r s opening hwritten, h]⟩

/-- A car is bought when there is money for it and insured from then on. -/
def household : Scenario Rat where
  name := "Household"
  events := [
    { name := "Car", type := "expense", amount := 300, recurrence := "once",
      conditions := [.networthIsAbove "Salary" 400] },
    { name := "Insurance", type := "expense", amount := 40, recurrence := "monthly",
      conditions := [.eventHappened "Car", .incomeIsAbove "Salary" 100] },
    { name := "Salary", type := "income", amount := 250, recurrence := "monthly",
      conditions := [.dateInRange ⟨2025, 1, 10⟩ none] },
    { name := "Bonus", type := "income", amount := 90, recurrence := "yearly",
      conditions := [.dateInRange ⟨2025, 3, 1⟩ (some ⟨2030, 1, 1⟩)] }]

theorem books_eq_trace_household :
    let months := Date.months ⟨2025, 1, 15⟩ ⟨2025, 3, 2⟩
    let H := ofTurns 0 (turns months household.events)
    Registry.full.wire household.events = .ok () ∧
      household.books .full ⟨2025, 1, 15⟩ ⟨2025, 3, 2⟩ 0 = .ok (H.books 0 months) ∧
      H.map (fun t => (t.month.key, t.event.name)) =
        [("2025-01", "Salary"), ("2025-02", "Salary"), ("2025-02", "Car"), ("2025-02", "Insurance"),
          ("2025-03", "Salary"), ("2025-03", "Bonus"), ("2025-03", "Insurance")] :=
  ⟨rfl, (books_eq_trace .full household 0 rfl (by decide) (by decide) (by decide)).1,
    by decide +kernel⟩

/-! ## Runs without an outcome -/

theorem monthsBeforeUnwritten_ascend {first : Date} (hf : first.HasMonth) :
    (Date.monthsBeforeUnwritten first).Pairwise (· < ·) := by
  unfold Date.monthsBeforeUnwritten
  split
  · exact List.Pairwise.nil
  · split
    · exact List.pairwise_singleton ..
    · rw [Date.window_eq_months hf (by decide)]
      exact Date.months_ascend

/-- A window with a month that is not written has no outcome. -/
theorem fault_of_reachesUnwritten {r : Registry} {s : Scenario α} {first last : Date} (opening : α)
    (hw : r.wire s.events = .ok ()) (hf : first.HasMonth)
    (h : Date.reachesUnwritten first last = true) :
    ∃ x, s.writtenBooks r first last opening = .error x ∧
      (x.fault = .value .longNumber ∨ x.fault = .value (.wholeText "")) := by
  have hmonths := evaluateMonths_agrees (Registry.defect?_of_wire hw) opening
    (monthsBeforeUnwritten_ascend hf)
  rw [Scenario.writtenBooks, if_pos h, Scenario.wiredBooks, hw]
  show ∃ x, (Books.evaluateMonths r s.events { balance := opening } _ >>= _) = _ ∧ _
  generalize Books.evaluateMonths r s.events { balance := opening } _ = y at hmonths ⊢
  cases y with
  | ok b => exact ⟨_, rfl, Or.inl rfl⟩
  | error x => exact ⟨x, rfl, Or.inr hmonths.fault_eq⟩

/-- Runs of wired events have an outcome exactly when their months are written and no turn is stuck,
and no turn of a run from the year zero on is. The only faults are a month too long to be written
and a year that is not there. -/
theorem writtenBooks_ok_iff (r : Registry) (s : Scenario α) {first last : Date} (opening : α)
    (hw : r.wire s.events = .ok ()) (hf : first.HasMonth) (hl : last.HasMonth) :
    ((∃ b, s.writtenBooks r first last opening = .ok b) ↔
      Date.reachesUnwritten first last = false ∧
        NeverStuck opening (turns (Date.months first last) s.events)) ∧
    (0 ≤ first.year → NeverStuck opening (turns (Date.months first last) s.events)) ∧
    ∀ x, s.writtenBooks r first last opening = .error x →
      x.fault = .value .longNumber ∨ x.fault = .value (.wholeText "") := by
  refine ⟨?_, neverStuck_of_nonneg s.events hf, ?_⟩
  · cases h : Date.reachesUnwritten first last with
    | true =>
      obtain ⟨x, hx, -⟩ := fault_of_reachesUnwritten opening hw hf h
      rw [hx]
      constructor
      · rintro ⟨_, ⟨⟩⟩
      · rintro ⟨⟨⟩, -⟩
    | false =>
      rw [Scenario.writtenBooks_eq r s opening h, books_ok_iff opening hw hf hl]
      exact ⟨fun hs => ⟨rfl, hs⟩, fun hs => hs.2⟩
  · intro x hx
    cases h : Date.reachesUnwritten first last with
    | true =>
      obtain ⟨y, hy, hfault⟩ := fault_of_reachesUnwritten opening hw hf h
      rw [hy] at hx
      cases hx
      exact hfault
    | false =>
      have hagree := books_agrees opening hw hf hl
      rw [← Scenario.writtenBooks_eq r s opening h, hx] at hagree
      exact Or.inr hagree.fault_eq

/-- The same income comes round in January of the years -2 and -1. -/
def tithe : Scenario Rat where
  name := "Tithe"
  events := [
    { name := "Tithe", type := "income", amount := 1, recurrence := "yearly",
      conditions := [.dateInRange ⟨-2, 1, 1⟩ none] }]

theorem writtenBooks_tithe :
    Registry.full.wire tithe.events = .ok () ∧
      ¬ ∃ b, tithe.writtenBooks .full ⟨-2, 1, 1⟩ ⟨-1, 1, 1⟩ 0 = .ok b := by
  refine ⟨rfl, fun h => ?_⟩
  have hs := ((writtenBooks_ok_iff .full tithe 0 rfl (by decide) (by decide)).1.1 h).2
  -- The last of the turns is stuck: the first tithe fell due in the year -2.
  exact hs (turns (Date.months ⟨-2, 1, 1⟩ ⟨-2, 12, 1⟩) tithe.events)
    ⟨⟨-1, 1, 1⟩, tithe.events.head (by decide)⟩ [] rfl (by decide +kernel)

/-! ## Runs that return -/

theorem writtenBooks_of_unwired {r : Registry} {s : Scenario α} {f : ConfigFault}
    (hw : r.wire s.events = .error f) (first last : Date) (opening : α) :
    s.writtenBooks r first last opening = .error ⟨.config f, { balance := opening }⟩ := by
  rw [Scenario.writtenBooks, Scenario.books, Scenario.wiredBooks, Scenario.wiredBooks, hw]
  split <;> rfl

theorem writtenRun_eq_ok {r : Registry} {s : Scenario α} {first last : Date} {opening : α}
    {run : Run α} (h : s.writtenRun r first last opening = .ok run) :
    ∃ b, s.writtenBooks r first last opening = .ok b ∧ run = .ofBooks s.name opening b := by
  unfold Scenario.writtenRun at h
  split at h
  · exact ⟨_, by assumption, (Except.ok.inj h).symm⟩
  · cases h

theorem written_of_writtenRun {r : Registry} {s : Scenario α} {first last : Date} {opening : α}
    {run : Run α} (hf : first.HasMonth) (h : s.writtenRun r first last opening = .ok run) :
    r.wire s.events = .ok () ∧ Date.reachesUnwritten first last = false := by
  obtain ⟨b, hb, -⟩ := writtenRun_eq_ok h
  cases hw : r.wire s.events with
  | error f =>
    rw [writtenBooks_of_unwired hw] at hb
    cases hb
  | ok u =>
    cases hwritten : Date.reachesUnwritten first last with
    | true =>
      obtain ⟨x, hx, -⟩ := fault_of_reachesUnwritten opening hw hf hwritten
      rw [hb] at hx
      cases hx
    | false => exact ⟨rfl, rfl⟩

/-- A run that returns is that of its trace, whatever the years. -/
theorem eq_of_writtenRun_ok {r : Registry} {s : Scenario α} {first last : Date} {opening : α}
    {run : Run α} (hf : first.HasMonth) (hl : last.HasMonth)
    (h : s.writtenRun r first last opening = .ok run) :
    run = .ofBooks s.name opening
      ((ofTurns opening (turns (Date.months first last) s.events)).books opening
        (Date.months first last)) := by
  obtain ⟨hw, hwritten⟩ := written_of_writtenRun hf h
  obtain ⟨b, hb, rfl⟩ := writtenRun_eq_ok h
  rw [Scenario.writtenBooks_eq r s opening hwritten] at hb
  rw [eq_of_books_ok opening hw hf hl hb]

/-- The run that a window stands for, and its outcome as long as all of its months are written. -/
structure Scenario.Yields (r : Registry) (s : Scenario α) (first last : Date) (opening : α)
    (run : Run α) : Prop where
  run_eq : s.run r first last opening = .ok run
  written : Date.reachesUnwritten first last = false →
    s.writtenRun r first last opening = .ok run

theorem Scenario.Yields.unique {r : Registry} {s : Scenario α} {first last : Date} {opening : α}
    {run run' : Run α} (h : s.Yields r first last opening run)
    (h' : s.Yields r first last opening run') : run = run' :=
  Except.ok.inj (h.run_eq.symm.trans h'.run_eq)

section Nonneg
variable {r : Registry} {s : Scenario α} {first last : Date} (opening : α)
  (hw : r.wire s.events = .ok ()) (hf : first.HasMonth) (hl : last.HasMonth) (hy : 0 ≤ first.year)
include hw hf hl hy

theorem books_of_nonneg :
    s.books r first last opening =
      .ok ((ofTurns opening (turns (Date.months first last) s.events)).books opening
        (Date.months first last)) := by
  obtain ⟨b, hb⟩ := (books_ok_iff opening hw hf hl).2 (neverStuck_of_nonneg s.events hf hy)
  rw [hb, eq_of_books_ok opening hw hf hl hb]

theorem run_of_nonneg :
    s.run r first last opening =
      .ok (.ofBooks s.name opening
        ((ofTurns opening (turns (Date.months first last) s.events)).books opening
          (Date.months first last))) := by
  rw [Scenario.run, books_of_nonneg opening hw hf hl hy]

theorem writtenRun_of_nonneg (hwritten : Date.reachesUnwritten first last = false) :
    s.writtenRun r first last opening =
      .ok (.ofBooks s.name opening
        ((ofTurns opening (turns (Date.months first last) s.events)).books opening
          (Date.months first last))) := by
  rw [Scenario.writtenRun_eq r s opening hwritten, run_of_nonneg opening hw hf hl hy]

theorem yields_trace :
    s.Yields r first last opening
      (.ofBooks s.name opening
        ((ofTurns opening (turns (Date.months first last) s.events)).books opening
          (Date.months first last))) :=
  ⟨run_of_nonneg opening hw hf hl hy, writtenRun_of_nonneg opening hw hf hl hy⟩

end Nonneg

theorem writtenRun_household :
    household.writtenRun .full ⟨2025, 1, 15⟩ ⟨2025, 3, 2⟩ 0 =
      .ok (.ofBooks "Household" 0
        ((ofTurns 0 (turns (Date.months ⟨2025, 1, 15⟩ ⟨2025, 3, 2⟩) household.events)).books 0
          (Date.months ⟨2025, 1, 15⟩ ⟨2025, 3, 2⟩))) :=
  writtenRun_of_nonneg 0 rfl (by decide) (by decide) (by decide) (by decide +kernel)

end Cashflow

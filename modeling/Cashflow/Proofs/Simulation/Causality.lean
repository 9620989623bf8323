import Cashflow.Proofs.Simulation.Months
import Cashflow.Proofs.Simulation.Separation
import Cashflow.Proofs.Simulation.Superposition

/-!
# Causality

A run does not know what comes after the month that it is in. Two runs from one month on have the
same books at the end of a month, and the same entries and closing balances up to it, wherever they
end, and whatever events one of them has besides, as long as a calendar condition keeps these shut
up to that month (`causality`).

An event that is shut has its turns in each month but leaves no firing, so both scenarios have one
trace up to the month (`ofTurns_eq_of_shut`); firings after it leave the entries and the closing
balances up to it as they are (`entry_append_of_later`, `upTo_append_of_later`).
-/

namespace Cashflow
open Trace

/-- One of its calendar conditions holds in no month up to the given one. -/
def Event.ShutThrough {α : Type} [Amount α] (e : Event α) (last : Date) : Prop :=
  ∃ c ∈ e.conditions, c.isCalendar = true ∧
    ∀ moment : Moment α, moment.month.HasMonth → moment.month.index ≤ last.index →
      c.holds moment = false

namespace Trace

/-! ## Firings that come later -/

section Later
variable {α : Type} {H L : Trace α} {m : Date}

theorem upTo_append_of_later (h : ∀ t ∈ L, m < t.month) : upTo (H ++ L) m = H.upTo m := by
  rw [upTo_append, upTo_eq_nil h, List.append_nil]

theorem entry_append_of_later [Amount α] (h : ∀ t ∈ L, m < t.month) :
    entry (H ++ L) m = H.entry m := by
  have hd : during L m = [] := during_eq_nil fun t ht he => Date.ne_of_lt (h t ht) he.symm
  rw [entry, entry, during_append, hd, List.append_nil]

end Later

/-! ## Turns that never fire -/

variable {α : Type} [Amount α] {opening : α}

theorem ofTurns_filter_of_not_fires {p : Turn α → Bool} {ts : List (Turn α)}
    (h : ∀ t ∈ ts, p t = false → ∀ H : Trace α, ¬ Fires opening H t) :
    ofTurns opening (ts.filter p) = ofTurns opening ts := by
  rw [ofTurns, ofTurns, List.foldl_filter]
  refine List.foldl_ext _ _ _ fun H t ht => ?_
  cases hp : p t with
  | true => rfl
  | false => exact (visit_of_not_fires (h t ht hp H)).symm

theorem not_fires_of_shutThrough {H : Trace α} {t : Turn α} {last : Date}
    (h : t.event.ShutThrough last) (hm : t.month.HasMonth) (hi : t.month.index ≤ last.index) :
    ¬ Fires opening H t := by
  obtain ⟨c, hc, -, hshut⟩ := h
  intro hfires
  -- The moment of the turn: what it shows is that the condition does hold.
  have hshown : H.Shown
      ⟨t.month, H.balance opening, H.history, (H.during t.month).map Turn.event, false⟩ :=
    ⟨rfl, rfl, rfl⟩
  have hholds := (hshown.holds_iff fun _ => rfl).2 (hfires.2 c hc)
  rw [hshut _ hm hi] at hholds
  cases hholds

variable {events inserted events' : List (Event α)} {first last : Date}

open Classical in
/-- Events that are shut leave no firing. -/
theorem ofTurns_eq_of_shut (hmerged : Interleaving events inserted events')
    (hshut : ∀ e ∈ inserted, e.ShutThrough last) :
    ofTurns opening (turns (Date.months first last) events') =
      ofTurns opening (turns (Date.months first last) events) := by
  -- Some of the other events may be shut as well, so all that are shut are left out of both.
  have hopen : ∀ es : List (Event α),
      ofTurns opening (turns (Date.months first last)
          (es.filter fun e => !decide (e.ShutThrough last))) =
        ofTurns opening (turns (Date.months first last) es) := by
    intro es
    rw [← filter_turns]
    refine ofTurns_filter_of_not_fires fun t ht hp H => ?_
    have hshut : t.event.ShutThrough last := by simpa using hp
    obtain ⟨hm, -, -, hi⟩ := Date.mem_months.1 (mem_turns.1 ht).1
    exact not_fires_of_shutThrough hshut hm hi
  have hkept : events'.filter (fun e => !decide (e.ShutThrough last)) =
      events.filter fun e => !decide (e.ShutThrough last) := by
    induction hmerged with
    | nil => rfl
    | left _ ih => rw [List.filter_cons, List.filter_cons, ih hshut]
    | right _ ih =>
      obtain ⟨hx, hshut⟩ := List.forall_mem_cons.1 hshut
      rw [List.filter_cons_of_neg (by simpa using hx), ih hshut]
  rw [← hopen events', ← hopen events, hkept]

end Trace

/-! ## Windows that go on -/

namespace Date
variable {first middle last : Date}

/-- A window that ends later goes on from the last month of the one that ends earlier. -/
theorem months_eq_append (h : middle.index ≤ last.index) :
    ∃ later, months first last = months first middle ++ later := by
  have hn : monthsBetween first middle ≤ monthsBetween first last := by
    have hmiddle := coe_monthsBetween first middle
    have hlast := coe_monthsBetween first last
    omega
  refine ⟨(months first last).drop (monthsBetween first middle), ?_⟩
  have htake : (months first last).take (monthsBetween first middle) = months first middle := by
    rw [months, months, ← List.map_take, List.take_range, Nat.min_eq_left hn]
  rw [← htake, List.take_append_drop]

end Date

variable {α : Type} [Amount α] {r : Registry} {first middle last : Date}

/-- What fires after a month is added behind the trace up to it. -/
theorem Trace.ofTurns_eq_append (opening : α) (events : List (Event α)) {later : List Date}
    (h : Date.months first last = Date.months first middle ++ later) :
    ∃ L : Trace α,
      ofTurns opening (turns (Date.months first last) events) =
        ofTurns opening (turns (Date.months first middle) events) ++ L ∧
      ∀ m ∈ Date.months first middle, ∀ t ∈ L, m < t.month := by
  have hascend : (Date.months first last).Pairwise (· < ·) := Date.months_ascend
  rw [h] at hascend
  obtain ⟨L, hL, hsub⟩ := foldl_visit opening
    (ofTurns opening (turns (Date.months first middle) events)) (turns later events)
  refine ⟨L, ?_, fun m hm t ht => ?_⟩
  · rw [h, turns_append, ofTurns_append, hL]
  · exact (List.pairwise_append.1 hascend).2.2 m hm t.month (mem_turns.1 (hsub.mem ht)).1

/-! ## Events of the future -/

section Future
variable {e : Event α}

/-- An event that waits for a date is shut before the month of the date. -/
theorem shutThrough_of_dateIs {d : Date} (hc : .dateIs d ∈ e.conditions)
    (h : last.index < d.index) : e.ShutThrough last := by
  refine ⟨_, hc, rfl, fun moment _ hi => ?_⟩
  simp only [Condition.holds, Date.sameMonth, Bool.and_eq_false_iff, decide_eq_false_iff_not]
  simp only [Date.index] at h hi
  omega

/-- An event that waits for a range is shut before the first month of the range. -/
theorem shutThrough_of_dateInRange {d : Date} {stop : Option Date}
    (hc : .dateInRange d stop ∈ e.conditions) (hd : d.HasMonth)
    (h : last.index < d.index) : e.ShutThrough last := by
  refine ⟨_, hc, rfl, fun moment hm hi => ?_⟩
  have hbefore : ¬ d.startOfMonth ≤ moment.month.startOfMonth := by
    rw [Date.startOfMonth_le_iff hd hm]
    omega
  rw [Condition.holds, Condition.inRange, Date.within, decide_eq_false hbefore, Bool.false_and]

end Future

/-! ## Runs that go on -/

namespace Scenario

/-- The run comes by the books `b` at the end of the month `middle` : it goes on from there, and the
entries and the closing balances that are in the books stay as they are. -/
structure ComesBy (r : Registry) (s : Scenario α) (first middle last : Date) (opening : α)
    (run : Run α) (b : Books α) : Prop where
  yields : s.Yields r first last opening run
  reached : s.books r first middle opening = .ok b
  onward : ∃ later c, Date.window first last = Date.window first middle ++ later ∧
    b.evaluateMonths r s.events later = .ok c ∧ run = .ofBooks s.name opening c
  entries : ∀ m ∈ Date.months first middle,
    ∃ t ∈ b.cashflow.get? m.key, run.cashflow.get? m.key = some t
  closings : ∀ m ∈ Date.months first middle,
    ∃ v ∈ b.balances.get? m.key, run.balances.get? m.key = some v

section Wired
variable {s : Scenario α} (opening : α) (hw : r.wire s.events = .ok ())
include hw

theorem books_eq_evaluateMonths (first last : Date) :
    s.books r first last opening =
      ({ balance := opening } : Books α).evaluateMonths r s.events (Date.window first last) := by
  rw [books, wiredBooks, hw]
  exact Books.evaluateWindow_eq r s.events _ first last

variable (hf : first.HasMonth) (hy : 0 ≤ first.year)
include hf hy

theorem comesBy_trace (hm : middle.HasMonth) (hl : last.HasMonth)
    (hml : middle.index ≤ last.index) :
    s.ComesBy r first middle last opening
      (.ofBooks s.name opening
        ((ofTurns opening (turns (Date.months first last) s.events)).books opening
          (Date.months first last)))
      ((ofTurns opening (turns (Date.months first middle) s.events)).books opening
        (Date.months first middle)) := by
  have hreached := books_of_nonneg opening hw hf hm hy
  have hended := books_of_nonneg opening hw hf hl hy
  obtain ⟨later, hlater⟩ : ∃ later, Date.months first last = Date.months first middle ++ later :=
    Date.months_eq_append hml
  obtain ⟨L, htrace, hafter⟩ := ofTurns_eq_append opening s.events hlater
  have hwindow : Date.window first last = Date.window first middle ++ later := by
    rw [Date.window_eq_months hf hl, Date.window_eq_months hf hm, hlater]
  have hmem : ∀ m ∈ Date.months first middle, m ∈ Date.months first last := by
    intro m h
    rw [hlater]
    exact List.mem_append_left later h
  refine ⟨yields_trace opening hw hf hl hy, hreached, ⟨later, _, hwindow, ?_, rfl⟩, ?_, ?_⟩
  · rw [books_eq_evaluateMonths opening hw] at hreached hended
    unfold Books.evaluateMonths at hreached hended ⊢
    rw [hwindow, List.foldlM_append, hreached] at hended
    exact hended
  · intro m h
    have hrun := get?_cashflow opening Date.nodup_keys
      (ofTurns opening (turns (Date.months first last) s.events)) (hmem m h)
    rw [htrace, entry_append_of_later (hafter m h), ← htrace] at hrun
    exact ⟨_, get?_cashflow opening Date.nodup_keys _ h, hrun⟩
  · intro m h
    have hrun := get?_balances opening Date.nodup_keys
      (ofTurns opening (turns (Date.months first last) s.events)) (hmem m h)
    rw [htrace, upTo_append_of_later (hafter m h), ← htrace] at hrun
    exact ⟨_, get?_balances opening Date.nodup_keys _ h, hrun⟩

end Wired

end Scenario

/-- Runs from one month on come by the same books at the end of a month, wherever they end, and
whatever is in one of the scenarios besides, if it is shut up to that month. -/
theorem causality (r : Registry) {s s' : Scenario α} {inserted : List (Event α)}
    {first middle last last' : Date} (opening : α) (hw : r.wire s.events = .ok ())
    (hw' : r.wire inserted = .ok ()) (hmerged : Interleaving s.events inserted s'.events)
    (hshut : ∀ e ∈ inserted, e.ShutThrough middle) (hf : first.HasMonth) (hm : middle.HasMonth)
    (hl : last.HasMonth) (hl' : last'.HasMonth) (hy : 0 ≤ first.year)
    (hml : middle.index ≤ last.index) (hml' : middle.index ≤ last'.index) :
    ∃ b run run', s.ComesBy r first middle last opening run b ∧
      s'.ComesBy r first middle last' opening run' b := by
  have hwired : r.wire s'.events = .ok () := by
    rw [Registry.wire_eq_ok_iff] at hw hw' ⊢
    intro e he
    exact (hmerged.mem_iff.1 he).elim (hw e) (hw' e)
  have hs := Scenario.comesBy_trace opening hw hf hy hm hl hml
  have hs' := Scenario.comesBy_trace opening hwired hf hy hm hl' hml'
  rw [ofTurns_eq_of_shut hmerged hshut] at hs'
  exact ⟨_, _, _, hs, hs'⟩

/-- Plans for March: another car, and a villa as soon as it can be afforded. -/
def plans : List (Event Rat) := [
  { name := "Car", type := "expense", amount := 100, recurrence := "monthly",
    conditions := [.dateIs ⟨2025, 3, 9⟩] },
  { name := "Villa", type := "expense", amount := 50, recurrence := "once",
    conditions := [.networthIsAbove "Salary" 0, .dateInRange ⟨2025, 3, 1⟩ none] }]

/-- The household with the plans, one before its events and one among them. -/
def planner : Scenario Rat where
  name := "Planner"
  events := plans.take 1 ++ household.events.take 2 ++ plans.drop 1 ++ household.events.drop 2

theorem causality_planner :
    Interleaving household.events plans planner.events ∧
      (∀ e ∈ plans, e.ShutThrough ⟨2025, 2, 28⟩) ∧
      ∃ b run run',
        household.ComesBy .full ⟨2025, 1, 15⟩ ⟨2025, 2, 28⟩ ⟨2025, 4, 2⟩ 0 run b ∧
        planner.ComesBy .full ⟨2025, 1, 15⟩ ⟨2025, 2, 28⟩ ⟨2025, 3, 2⟩ 0 run' b ∧
        b.history.keys = ["Salary", "Car", "Insurance"] ∧
        run.balances.values = [250, 160, 460, 670] ∧ run'.balances.values = [250, 160, 310] := by
  have hmerged : Interleaving household.events plans planner.events :=
    .right (.left (.left (.right (.left (.left .nil)))))
  have hshut : ∀ e ∈ plans, e.ShutThrough ⟨2025, 2, 28⟩ := by
    refine List.forall_mem_cons.2 ⟨?_, List.forall_mem_singleton.2 ?_⟩
    · exact shutThrough_of_dateIs (d := ⟨2025, 3, 9⟩) List.mem_cons_self (by decide)
    · exact shutThrough_of_dateInRange (d := ⟨2025, 3, 1⟩)
        (List.mem_cons_of_mem _ List.mem_cons_self) (by decide) (by decide)
  have hf : Date.HasMonth ⟨2025, 1, 15⟩ := by decide
  obtain ⟨b, run, run', h, h'⟩ := causality .full (0 : Rat) rfl rfl hmerged hshut hf
    (by decide) (show Date.HasMonth ⟨2025, 4, 2⟩ by decide)
    (show Date.HasMonth ⟨2025, 3, 2⟩ by decide) (by decide) (by decide) (by decide)
  refine ⟨hmerged, hshut, b, run, run', h, h', ?_, ?_, ?_⟩
  · have hb := h.reached.symm.trans (books_of_nonneg 0 rfl hf (by decide) (by decide))
    rw [Except.ok.inj hb]
    decide +kernel
  · rw [h.yields.unique (yields_trace 0 rfl hf (by decide) (by decide))]
    decide +kernel
  · rw [h'.yields.unique (yields_trace 0 rfl hf (by decide) (by decide))]
    decide +kernel

end Cashflow

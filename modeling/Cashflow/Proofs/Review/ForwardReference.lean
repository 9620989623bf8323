import Cashflow.Proofs.Review.Findings
import Cashflow.Proofs.Simulation.Months

/-!
# Forward references

An event has one turn in a month (`OpenMonth.untilTurn`), and what fires after it comes too late for
its conditions. The linter warns where that may matter. Without such a warning it does not: an event
that is passed over at its turn would be passed over at the end of the month too, with all that
fired since (`shouldFire_at_close_of_no_forwardReference`).

The reason is that nothing opens for it in between (`fires_of_fires_append`): its gate only closes,
no name that it waits for is left to fire, and an income of such a name stays the first one.
-/

namespace Cashflow
open Lint Trace

variable {α : Type} [Amount α]

/-- The month in progress when the event `e`, in the place `i`, has its turn. -/
def OpenMonth.untilTurn (r : Registry) (events : List (Event α)) (i : Nat) (e : Event α)
    (o : OpenMonth α) : Except (Halted (OpenMonth α)) (OpenMonth α) :=
  if e.isBalanceGated then o.evaluate r (passes events).1 (passes (events.take i)).2
  else o.firstPass r (passes (events.take i)).1

/-- An event stands in its pass between those that are declared before and after it. -/
theorem passes_place {α : Type} {events : List (Event α)} {i : Nat} {e : Event α}
    (hi : events[i]? = some e) :
    (e.isBalanceGated = false →
      (passes events).1 =
        (passes (events.take i)).1 ++ e :: (passes (events.drop (i + 1))).1) ∧
    (e.isBalanceGated = true →
      (passes events).2 =
        (passes (events.take i)).2 ++ e :: (passes (events.drop (i + 1))).2) := by
  have hsplit : events = events.take i ++ e :: events.drop (i + 1) := by
    obtain ⟨hlt, rfl⟩ := List.getElem?_eq_some_iff.1 hi
    rw [List.getElem_cons_drop, List.take_append_drop]
  constructor
  all_goals
    intro h
    conv_lhs => rw [hsplit]
    simp [passes, h]

namespace Trace
variable {r : Registry} {events : List (Event α)} {opening : α} {month : Date} {H : Trace α}
  {start : OpenMonth α} {i : Nat} {e : Event α}

/-- Each turn of a month is reached, and after that of a balance-gated event only those come that
are declared further on. -/
theorem exists_untilTurn (hr : ∀ e ∈ events, r.defect? e = none)
    (h : Follows opening month H start) (hH : ∀ u ∈ H, 0 ≤ u.month.year) (hm : 0 ≤ month.year)
    (hi : events[i]? = some e) :
    ∃ (before after : List (Event α)) (turn : OpenMonth α),
      (passes events).1 ++ (passes events).2 = before ++ e :: after ∧
      (e.isBalanceGated = true →
        ∀ x ∈ after, x ∈ events.drop (i + 1) ∧ x.isBalanceGated = true) ∧
      start.untilTurn r events i e = .ok turn ∧
      Follows opening month ((before.map fun x => ⟨month, x⟩).foldl (visit opening) H) turn := by
  obtain ⟨hfirst, hsecond⟩ := passes_place hi
  have hbefore : ∀ x ∈ events.take i, r.defect? x = none := fun x hx =>
    hr x (List.mem_of_mem_take hx)
  unfold OpenMonth.untilTurn
  cases hgated : e.isBalanceGated with
  | false =>
    obtain ⟨turn, hturn, hfollows⟩ := firstPass_of_nonneg h hH hm hbefore
    refine ⟨_, (passes (events.drop (i + 1))).1 ++ (passes events).2, turn, ?_, nofun, hturn,
      hfollows⟩
    rw [hfirst hgated, List.append_assoc, List.cons_append]
  | true =>
    obtain ⟨turn, hturn, hfollows⟩ := evaluate_of_nonneg h hH hm hr hbefore
    refine ⟨_, (passes (events.drop (i + 1))).2, turn, ?_, fun _ x hx => List.mem_filter.1 hx,
      hturn, hfollows⟩
    rw [hsecond hgated, List.append_assoc]

/-- What is passed over at its turn is passed over at the end of the month, if the linter gives no
warning that it looks ahead. -/
theorem not_fires_at_close (hfree : e.IgnoresBalance)
    (hwarned : ∀ name, .forwardReference name ∉ warningsAt events i e) {after : List (Event α)}
    (hlater : e.isBalanceGated = true →
      ∀ x ∈ after, x ∈ events.drop (i + 1) ∧ x.isBalanceGated = true)
    (h : ¬ Fires opening H ⟨month, e⟩) :
    ¬ Fires opening ((after.map fun x => ⟨month, x⟩).foldl (visit opening) H) ⟨month, e⟩ := by
  obtain ⟨L, hL, hs⟩ := foldl_visit opening H (after.map fun x => ⟨month, x⟩)
  have hmem : ∀ u ∈ L, u.month = month ∧ u.event ∈ after := by
    intro u hu
    obtain ⟨x, hx, rfl⟩ := List.mem_map.1 (hs.mem hu)
    exact ⟨rfl, hx⟩
  rw [hL]
  refine mt (fires_of_fires_append hfree (fun u hu => (hmem u hu).1) ?_) h
  intro c hc name hname u hu huname
  obtain ⟨hdrop, hgated⟩ := hlater (Event.isBalanceGated_of_awaited? hc hname) _ (hmem u hu).2
  exact hwarned name
    (forwardReference_mem_iff.2 ⟨⟨c, hc, hname⟩, u.event, hdrop, hgated, huname⟩)

theorem shouldFire_at_close {o : OpenMonth α} (hr : ∀ e ∈ events, r.defect? e = none)
    (h : Follows opening month H start) (hH : ∀ u ∈ H, 0 ≤ u.month.year) (hm : 0 ≤ month.year)
    (hclose : Follows opening month ((turns [month] events).foldl (visit opening) H) o)
    (hi : events[i]? = some e) (hfree : e.IgnoresBalance)
    (hwarned : ∀ name, .forwardReference name ∉ warningsAt events i e) :
    ∃ turn, start.untilTurn r events i e = .ok turn ∧
      (e ∉ o.entry.events → e.shouldFire r turn.moment = .ok false) ∧
      (e.shouldFire r turn.moment = .ok false → e.shouldFire r o.refresh.moment = .ok false) := by
  obtain ⟨before, after, turn, hplace, hlater, hturn, hfollows⟩ := exists_untilTurn hr h hH hm hi
  have he := hr e (List.mem_of_getElem? hi)
  have hcloseNonneg : ∀ u ∈ (turns [month] events).foldl (visit opening) H, 0 ≤ u.month.year :=
    forall_mem_foldl_visit hH fun t ht => List.mem_singleton.1 (mem_turns.1 ht).1 ▸ hm
  have hturnNonneg : ∀ u ∈ (before.map fun x => ⟨month, x⟩).foldl (visit opening) H,
      0 ≤ u.month.year :=
    forall_mem_foldl_visit hH (List.forall_mem_map.2 fun _ _ => hm)
  refine ⟨turn, hturn, ?_⟩
  simp only [hfollows.shouldFire_eq hturnNonneg he hfree,
    hclose.refresh.shouldFire_eq hcloseNonneg he hfree, Except.ok.injEq, decide_eq_false_iff_not,
    hclose.entry, mem_events_entry]
  rw [turns_singleton, hplace, List.map_append, List.map_cons, List.foldl_append, List.foldl_cons]
  -- `K` is the trace at the turn of the event.
  generalize (before.map fun x => (⟨month, x⟩ : Turn α)).foldl (visit opening) H = K
  constructor
  · intro hlisted hfires
    obtain ⟨L, hL, -⟩ := foldl_visit opening (K ++ [⟨month, e⟩]) (after.map fun x => ⟨month, x⟩)
    rw [visit_of_fires hfires, hL] at hlisted
    exact hlisted (List.mem_append_left L (List.mem_append_right K List.mem_cons_self))
  · intro hpassed
    rw [visit_of_not_fires hpassed]
    exact not_fires_at_close hfree hwarned hlater hpassed

end Trace

/-- An event without a condition about net worth for which the linter gives no warning of a forward
reference misses nothing that fires after its turn: in no month of a run would it fire at the end,
with the history, the firings and the closing balance of then, if it was passed over at its turn, as
it was if it is not among the firings of the month. -/
theorem shouldFire_at_close_of_no_forwardReference (r : Registry) (s : Scenario α)
    {first last : Date} (opening : α) (hw : r.wire s.events = .ok ()) (hf : first.HasMonth)
    (hl : last.HasMonth) (hy : 0 ≤ first.year) :
    s.lint.warnings = (s.events.zipIdx.flatMap fun p =>
      (warningsAt s.events p.2 p.1).map (Issue.mk p.1.name)) ∧
    ∃ run, s.Yields r first last opening run ∧
      ∀ before m after, Date.window first last = before ++ m :: after →
        ∃ b o, ({ balance := opening } : Books α).evaluateMonths r s.events before = .ok b ∧
          (b.openMonth m).evaluate r (passes s.events).1 (passes s.events).2 = .ok o ∧
          run.cashflow.get? m.key = some o.entry ∧ run.balances.get? m.key = some o.balance ∧
          ∀ (i : Nat) (e : Event α), s.events[i]? = some e → e.IgnoresBalance →
            (∀ name, .forwardReference name ∉ warningsAt s.events i e) →
            ∃ turn, (b.openMonth m).untilTurn r s.events i e = .ok turn ∧
              (e ∉ o.entry.events → e.shouldFire r turn.moment = .ok false) ∧
              (e.shouldFire r turn.moment = .ok false →
                e.shouldFire r o.refresh.moment = .ok false) := by
  refine ⟨warnings_lint s, _, yields_trace opening hw hf hl hy, fun before m after hwindow => ?_⟩
  have hr := Registry.defect?_of_wire hw
  rw [Date.window_eq_months hf hl] at hwindow
  have hs : (before ++ m :: after).Pairwise (· < ·) := hwindow ▸ Date.months_ascend
  have hnonneg : ∀ d ∈ before ++ m :: after, 0 ≤ d.year := fun d hd =>
    Int.le_trans hy (Date.year_le_of_mem_months hf (hwindow ▸ hd))
  have hmem : m ∈ Date.months first last := hwindow ▸ List.mem_append_right _ List.mem_cons_self
  obtain ⟨b, o, hb, ho, hstart, hclose⟩ := exists_month hr opening hs hnonneg
  refine ⟨b, o, hb, ho, ?_, ?_, fun i e hi hfree hwarned => ?_⟩
  · rw [hclose.entry, entry_upTo, ← hwindow]
    exact get?_cashflow opening Date.nodup_keys _ hmem
  · rw [hclose.balance, ← hwindow]
    exact get?_balances opening Date.nodup_keys _ hmem
  · rw [upTo_ofTurns hs, turns_append, ofTurns_append] at hclose
    refine shouldFire_at_close hr hstart (fun u hu => hnonneg _ ?_)
      (hnonneg m (List.mem_append_right _ List.mem_cons_self)) hclose hi hfree hwarned
    exact List.mem_append_left _ (mem_turns.1 (mem_of_mem_ofTurns hu)).1

/-- The insurance looks back at the car, so it misses nothing in January. -/
theorem shouldFire_at_close_household :
    household.events[1].IgnoresBalance ∧
      (∀ name, .forwardReference name ∉ warningsAt household.events 1 household.events[1]) ∧
      ∃ run b o, household.Yields .full ⟨2025, 1, 15⟩ ⟨2025, 3, 2⟩ 0 run ∧
        ({ balance := 0 } : Books Rat).evaluateMonths .full household.events [] = .ok b ∧
        (b.openMonth ⟨2025, 1, 1⟩).evaluate .full (passes household.events).1
          (passes household.events).2 = .ok o ∧
        o.entry.events.map Event.name = ["Salary"] ∧
        household.events[1].shouldFire .full o.refresh.moment = .ok false := by
  have hfree : household.events[1].IgnoresBalance := by decide
  have hwarned : ∀ name, .forwardReference name ∉
      warningsAt household.events 1 household.events[1] := by
    rw [show warningsAt household.events 1 household.events[1] = [] by decide +kernel]
    exact fun name => List.not_mem_nil
  obtain ⟨-, run, hrun, hmonths⟩ :=
    shouldFire_at_close_of_no_forwardReference .full household (0 : Rat) rfl
      (show Date.HasMonth ⟨2025, 1, 15⟩ by decide) (show Date.HasMonth ⟨2025, 3, 2⟩ by decide)
      (by decide)
  obtain ⟨b, o, hb, ho, -, -, hmissed⟩ :=
    hmonths [] ⟨2025, 1, 1⟩ [⟨2025, 2, 1⟩, ⟨2025, 3, 1⟩]
      (by rw [Date.window_eq_months (by decide) (by decide)]; rfl)
  have hlisted : o.entry.events.map Event.name = ["Salary"] := by
    cases hb
    have hentry : ((Books.openMonth { balance := (0 : Rat) } ⟨2025, 1, 1⟩).evaluate .full
        (passes household.events).1 (passes household.events).2).toOption.map
          (fun o => o.entry.events.map Event.name) = some ["Salary"] := by
      decide +kernel
    rw [ho] at hentry
    exact Option.some.inj hentry
  obtain ⟨turn, -, hpassed, hclose⟩ := hmissed 1 _ rfl hfree hwarned
  refine ⟨hfree, hwarned, run, b, o, hrun, hb, ho, hlisted, hclose (hpassed fun hmem => ?_)⟩
  have hname : "Insurance" ∈ o.entry.events.map Event.name := List.mem_map_of_mem hmem
  rw [hlisted] at hname
  exact absurd hname (by decide)

end Cashflow

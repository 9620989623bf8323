import Cashflow.Scenario.Build
import Cashflow.Proofs.Ledger.History
import Cashflow.Proofs.Simulation.Separation

/-!
# The calendar of builder events

An event that is built without conditions of its own has a calendar only: whatever else a scenario
holds, it fires in the months that its builder was given, once in each (`builder_schedule`):

* a one-off event in the month of its date;
* a monthly event in the months of its range;
* a yearly event in those months of its range that have the number of the first.

If no other event has its name, its firings are those of the event alone
(`named_ofTurns_of_sole`), and along ascending months these are the months that are due
(`ofTurns_eq_filter`).

A range without an end stops at the far future all the same, and so do its events
(`openRange_closes`).
-/

namespace Cashflow
open Trace

/-- The one event of its name. -/
def Scenario.HasSole {α : Type} (s : Scenario α) (e : Event α) : Prop :=
  s.events.filter (fun x => x.name = e.name) = [e]

namespace Trace

/-! ## One event by itself -/

section Parts
variable {α : Type}

theorem turns_single (months : List Date) (e : Event α) :
    turns months [e] = months.map fun m => ⟨m, e⟩ := by
  rw [turns, ← List.flatMap_pure_eq_map]
  congr 1
  funext m
  cases h : e.isBalanceGated <;> simp [h]

end Parts

variable {α : Type} [Amount α] {opening : α}

theorem named_ofTurns_of_sole {s : Scenario α} {e : Event α} (months : List Date)
    (hs : s.HasSole e) (he : e.isBalanceGated = false) :
    (ofTurns opening (turns months s.events)).named e.name =
      ofTurns opening (months.map fun m => ⟨m, e⟩) := by
  have hsole : ∀ x ∈ s.events, x.name = e.name → x = e := fun x hx hname =>
    List.mem_singleton.1 (hs ▸ List.mem_filter.2 ⟨hx, decide_eq_true hname⟩)
  rw [← turns_single, ← hs, ← filter_turns]
  refine filter_ofTurns fun t ht hname H _ => ?_
  have hname : t.event.name = e.name := of_decide_eq_true hname
  refine fires_iff_of_named_eq (by rwa [hsole _ (mem_turns.1 ht).2 hname]) ?_
  rw [hname, named, named, List.filter_filter]
  simp only [Bool.and_self]

/-- An event by itself fires in the months that are due, if it does so after each of its firings. -/
theorem ofTurns_eq_filter {e : Event α} {due : Date → Bool} {months : List Date}
    (hs : months.Pairwise (· < ·))
    (h : ∀ before ⊆ months, ∀ m ∈ months, (∀ d ∈ before, d < m) →
      (Fires opening ((before.filter due).map fun d => ⟨d, e⟩) ⟨m, e⟩ ↔ due m = true)) :
    ofTurns opening (months.map fun m => ⟨m, e⟩) = (months.filter due).map fun m => ⟨m, e⟩ := by
  induction months using List.reverseRecOn with
  | nil => rfl
  | append_singleton months m ih =>
    obtain ⟨hs, -, hlt⟩ := List.pairwise_append.1 hs
    have hsub : months ⊆ months ++ [m] := List.subset_append_left months [m]
    have ih := ih hs fun before hb d hd => h before (List.Subset.trans hb hsub) d (hsub hd)
    have hm := h months hsub m (List.mem_append_right months List.mem_cons_self)
      fun d hd => hlt d hd m List.mem_cons_self
    rw [List.map_append, List.map_singleton, ofTurns_concat, ih, List.filter_append]
    by_cases hdue : due m = true
    · rw [visit_of_fires (hm.2 hdue), List.filter_cons_of_pos hdue, List.map_append]
      rfl
    · rw [visit_of_not_fires (mt hm.1 hdue), List.filter_cons_of_neg hdue, List.filter_nil,
        List.append_nil]

/-! ## The months that are due -/

/-- A range goes from its first month up to its last or, without one, to the far future. -/
theorem inRange_iff {m start : Date} {stop : Option Date} (hm : m.HasMonth)
    (hstart : start.HasMonth) (hstop : ∀ d ∈ stop, d.HasMonth) :
    Condition.inRange start stop m = true ↔
      start.index ≤ m.index ∧ m.index ≤ (stop.getD Date.farFuture).index := by
  have hend : (stop.map Date.startOfMonth).getD Date.farFuture =
      (stop.getD Date.farFuture).startOfMonth := by
    cases stop <;> rfl
  have hmonth : (stop.getD Date.farFuture).HasMonth := by
    cases stop with
    | none => decide
    | some d => exact hstop d rfl
  rw [Condition.inRange, hend, Date.within, Bool.and_eq_true, decide_eq_true_iff,
    decide_eq_true_iff, Date.startOfMonth_le_iff hstart hm, Date.startOfMonth_le_iff hm hmonth]

theorem holds_dateInRange_iff {H : Trace α} {m start : Date} {stop : Option Date}
    (hm : m.HasMonth) (hstart : start.HasMonth) (hstop : ∀ d ∈ stop, d.HasMonth) :
    Holds opening H m (.dateInRange start stop) ↔
      start.index ≤ m.index ∧ m.index ≤ (stop.getD Date.farFuture).index := by
  rw [← inRange_iff hm hstart hstop, Condition.inRange, Date.within, Bool.and_eq_true,
    decide_eq_true_iff, decide_eq_true_iff]
  rfl

section Builders
variable {e : Event α} {first last : Date}

theorem ofTurns_once {d : Date} (hr : e.recurrence = Recurrence.once.name)
    (hc : e.conditions = [.dateIs d]) :
    ofTurns opening ((Date.months first last).map fun m => ⟨m, e⟩) =
      ((Date.months first last).filter fun m => m.sameMonth d).map fun m => ⟨m, e⟩ := by
  refine ofTurns_eq_filter Date.months_ascend fun before hb m hm hlt => ?_
  rw [Fires, mayFire_once hr, hc, List.forall_mem_singleton, Holds]
  simp only [Date.sameMonth, Bool.and_eq_true, decide_eq_true_eq]
  refine ⟨And.right, fun hdue => ⟨?_, hdue⟩⟩
  -- A firing before would be in the month of the date too, which comes once.
  intro u hu
  obtain ⟨d', hd', rfl⟩ := List.mem_map.1 hu
  obtain ⟨hd', hsame⟩ := List.mem_filter.1 hd'
  have heq := Date.eq_startOfMonth_of_mem_months (hb hd') hsame
  have heq' := Date.eq_startOfMonth_of_mem_months (d := d) hm (by simp [Date.sameMonth, hdue])
  exact absurd (heq.trans heq'.symm) (Date.ne_of_lt (hlt d' hd'))

theorem fires_monthly_iff {start m : Date} {stop : Option Date} (H : Trace α)
    (hr : e.recurrence = Recurrence.monthly.name) (hc : e.conditions = [.dateInRange start stop])
    (hm : m.HasMonth) (hstart : start.HasMonth) (hstop : ∀ d ∈ stop, d.HasMonth) :
    Fires opening H ⟨m, e⟩ ↔
      start.index ≤ m.index ∧ m.index ≤ (stop.getD Date.farFuture).index := by
  rw [Fires, hc, List.forall_mem_singleton, holds_dateInRange_iff hm hstart hstop]
  exact and_iff_right (mayFire_monthly hr)

theorem ofTurns_monthly {start : Date} {stop : Option Date}
    (hr : e.recurrence = Recurrence.monthly.name) (hc : e.conditions = [.dateInRange start stop])
    (hstart : start.HasMonth) (hstop : ∀ d ∈ stop, d.HasMonth) :
    ofTurns opening ((Date.months first last).map fun m => ⟨m, e⟩) =
      ((Date.months first last).filter fun m =>
        start.index ≤ m.index ∧ m.index ≤ (stop.getD Date.farFuture).index).map
          fun m => ⟨m, e⟩ := by
  refine ofTurns_eq_filter Date.months_ascend fun before hb m hm hlt => ?_
  rw [fires_monthly_iff _ hr hc (Date.mem_months.1 hm).1 hstart hstop, decide_eq_true_iff]

theorem ofTurns_yearly {start : Date} {stop : Option Date}
    (hr : e.recurrence = Recurrence.yearly.name) (hc : e.conditions = [.dateInRange start stop])
    (hstart : start.HasMonth) (hstop : ∀ d ∈ stop, d.HasMonth) :
    ofTurns opening ((Date.months first last).map fun m => ⟨m, e⟩) =
      ((Date.months first last).filter fun m => m.month = start.month ∧
        start.index ≤ m.index ∧ m.index ≤ (stop.getD Date.farFuture).index).map
          fun m => ⟨m, e⟩ := by
  refine ofTurns_eq_filter Date.months_ascend fun before hb m hm hlt => ?_
  have hrange : e.dateRange? = some (start, stop) := by
    rw [Event.dateRange?, hc]
    rfl
  obtain ⟨hmonth, hday, -⟩ := Date.mem_months.1 hm
  rw [Fires, mayFire_yearly hr, hc, List.forall_mem_singleton,
    holds_dateInRange_iff hmonth hstart hstop, decide_eq_true_iff]
  simp only [hrange, Option.mem_some_iff, exists_eq_left']
  refine ⟨fun h => ⟨h.1.1, h.2⟩, fun h => ⟨⟨h.1, fun u hu => ?_⟩, h.2⟩⟩
  -- The last firing was in an earlier month of the same number.
  obtain ⟨d, hd, rfl⟩ := List.mem_map.1 (List.mem_filter.1 (List.mem_of_mem_getLast? hu)).1
  obtain ⟨hd, hdue⟩ := List.mem_filter.1 hd
  have hdmonth := (of_decide_eq_true hdue).1
  have hdday := (Date.mem_months.1 (hb hd)).2.1
  have hdm := Date.lt_iff.1 (hlt d hd)
  show d.year ≠ m.year
  omega

end Builders

end Trace

/-! ## Builder events in a run -/

theorem recurring_eq_append {α : Type} {type name : String} {amount : α} {start : Date}
    {stop : Option Date} {k : Recurrence} {conditions : List (Condition α)}
    {metadata : Option Value} {e : Event α}
    (h : Event.recurring type name amount start stop (.text k.name) conditions metadata = .ok e) :
    e = ⟨name, type, amount, k.name, conditions ++ [.dateInRange start stop], metadata⟩ := by
  unfold Event.recurring at h
  dsimp only at h
  split at h
  · exact (Except.ok.inj h).symm
  · cases h

theorem recurring_eq {α : Type} {type name : String} {amount : α} {start : Date}
    {stop : Option Date} {k : Recurrence} {metadata : Option Value} {e : Event α}
    (h : Event.recurring type name amount start stop (.text k.name) [] metadata = .ok e) :
    e = ⟨name, type, amount, k.name, [.dateInRange start stop], metadata⟩ :=
  recurring_eq_append h

variable {α : Type} [Amount α]

/-- The firings of an event in a run, if its name is its own. -/
theorem firingsOf_of_sole {s : Scenario α} {e : Event α} (first last : Date) (opening : α)
    (hs : s.HasSole e) (he : e.isBalanceGated = false) :
    (Run.ofBooks s.name opening
        ((ofTurns opening (turns (Date.months first last) s.events)).books opening
          (Date.months first last))).firingsOf e.name =
      (ofTurns opening ((Date.months first last).map fun m => ⟨m, e⟩)).map
        fun t => (t.month.key, t.event) := by
  have hn : (Date.months first last).Nodup := Date.nodup_months
  rw [firingsOf_books opening s.name Date.nodup_keys (ofTurns_eq_flatMap opening s.events hn),
    named_ofTurns_of_sole _ hs he]

/-- Events that are built without conditions fire as their builders say, once in each month that is
due and in no other, whatever else the scenario holds. -/
theorem builder_schedule (r : Registry) (s : Scenario α) {first last : Date} (opening : α)
    (hw : r.wire s.events = .ok ()) (hf : first.HasMonth) (hl : last.HasMonth)
    (hy : 0 ≤ first.year) :
    ∃ run, s.Yields r first last opening run ∧
      (∀ (type name : String) (amount : α) (date : Date) (metadata : Option Value),
        date.HasMonth → s.HasSole (.oneOff type name amount date [] metadata) →
        run.firingsOf name =
          if first.index ≤ date.index ∧ date.index ≤ last.index then
            [(date.key, .oneOff type name amount date [] metadata)]
          else []) ∧
      (∀ (type name : String) (amount : α) (start stop : Date) (metadata : Option Value)
          (e : Event α), start.HasMonth → stop.HasMonth →
        Event.recurring type name amount start (some stop) (.text Recurrence.monthly.name) []
          metadata = .ok e → s.HasSole e →
        run.firingsOf name =
          ((Date.months first last).filter fun m =>
            start.index ≤ m.index ∧ m.index ≤ stop.index).map fun m => (m.key, e)) ∧
      (∀ (type name : String) (amount : α) (start stop : Date) (metadata : Option Value)
          (e : Event α), start.HasMonth → stop.HasMonth →
        Event.recurring type name amount start (some stop) (.text Recurrence.yearly.name) []
          metadata = .ok e → s.HasSole e →
        run.firingsOf name =
          ((Date.months first last).filter fun m => m.month = start.month ∧
            start.index ≤ m.index ∧ m.index ≤ stop.index).map fun m => (m.key, e)) := by
  refine ⟨_, yields_trace opening hw hf hl hy, ?_, ?_, ?_⟩
  · intro type name amount date metadata hdate hsole
    rw [show name = (Event.oneOff type name amount date [] metadata).name from rfl,
      firingsOf_of_sole first last opening hsole rfl, ofTurns_once rfl rfl, List.map_map,
      Date.filter_sameMonth_months hdate]
    split <;> rfl
  · intro type name amount start stop metadata e hstart hstop he hsole
    obtain rfl := recurring_eq he
    have hfirings := firingsOf_of_sole first last opening hsole rfl
    rw [ofTurns_monthly rfl rfl hstart (by simpa using hstop), List.map_map] at hfirings
    exact hfirings
  · intro type name amount start stop metadata e hstart hstop he hsole
    obtain rfl := recurring_eq he
    have hfirings := firingsOf_of_sole first last opening hsole rfl
    rw [ofTurns_yearly rfl rfl hstart (by simpa using hstop), List.map_map] at hfirings
    exact hfirings

/-- A car, its insurance and its yearly tax, for as long as there is an income to pay them from. -/
def carOwner : Scenario Rat where
  name := "Car owner"
  events := [
    { name := "Fuel", type := "expense", amount := 30, recurrence := "monthly",
      conditions := [.eventHappened "Car", .networthIsAbove "Salary" 50] },
    .oneOff "expense" "Car" 300 ⟨2024, 12, 24⟩ [] none,
    { name := "Insurance", type := "expense", amount := 12, recurrence := "monthly",
      conditions := [.dateInRange ⟨2024, 12, 24⟩ (some ⟨2025, 2, 1⟩)] },
    { name := "Tax", type := "expense", amount := 25, recurrence := "yearly",
      conditions := [.dateInRange ⟨2024, 2, 29⟩ (some ⟨2026, 1, 31⟩)] },
    { name := "Salary", type := "income", amount := 100, recurrence := "monthly" }]

theorem builder_schedule_carOwner :
    ∃ run, carOwner.Yields .full ⟨2024, 1, 1⟩ ⟨2026, 12, 31⟩ 0 run ∧
      (run.firingsOf "Car").map Prod.fst = ["2024-12"] ∧
      (run.firingsOf "Insurance").map Prod.fst = ["2024-12", "2025-01", "2025-02"] ∧
      (run.firingsOf "Tax").map Prod.fst = ["2024-02", "2025-02"] := by
  have hf : Date.HasMonth ⟨2024, 1, 1⟩ := by decide
  have hl : Date.HasMonth ⟨2026, 12, 31⟩ := by decide
  obtain ⟨run, hrun, hcar, hinsurance, htax⟩ :=
    builder_schedule .full carOwner 0 rfl hf hl (by decide)
  refine ⟨run, hrun, ?_, ?_, ?_⟩
  · rw [hcar "expense" "Car" 300 ⟨2024, 12, 24⟩ none (by decide) rfl]
    decide +kernel
  · rw [hinsurance "expense" "Insurance" 12 ⟨2024, 12, 24⟩ ⟨2025, 2, 1⟩ none _ (by decide)
      (by decide) rfl rfl]
    decide +kernel
  · rw [htax "expense" "Tax" 25 ⟨2024, 2, 29⟩ ⟨2026, 1, 31⟩ none _ (by decide) (by decide) rfl rfl]
    decide +kernel

/-! ## Ranges without an end -/

namespace Trace
variable {opening : α} {t : Turn α}

theorem mem_visit_iff {H : Trace α} {u : Turn α} :
    t ∈ visit opening H u ↔ t ∈ H ∨ t = u ∧ Fires opening H t := by
  by_cases hf : Fires opening H u
  · rw [visit_of_fires hf, List.mem_append, List.mem_singleton]
    exact or_congr_right ⟨fun h => ⟨h, h ▸ hf⟩, And.left⟩
  · rw [visit_of_not_fires hf]
    exact ⟨Or.inl, fun h => h.elim id fun h => absurd (h.1 ▸ h.2) hf⟩

/-- A turn that looks at no firing fires whenever it comes, or never. -/
theorem mem_ofTurns_iff {P : Prop} (h : ∀ H : Trace α, Fires opening H t ↔ P)
    {ts : List (Turn α)} : t ∈ ofTurns opening ts ↔ t ∈ ts ∧ P := by
  induction ts using List.reverseRecOn with
  | nil => simp [ofTurns]
  | append_singleton ts u ih =>
    rw [ofTurns_concat, mem_visit_iff, ih, h, List.mem_append, List.mem_singleton, or_and_right]

end Trace

/-- A range without an end holds from its first month to December 2999, whereas one with an end
holds up to that, however far it is. So a monthly event without an end fires from its first month
to December 2999 in every run, and in no month after. -/
theorem openRange_closes :
    (∀ (start : Date) (stop : Option Date) (moment : Moment α), start.HasMonth →
      (∀ d ∈ stop, d.HasMonth) → moment.month.HasMonth →
      ((Condition.dateInRange start stop).holds moment = true ↔
        start.index ≤ moment.month.index ∧
          moment.month.index ≤ (stop.getD ⟨2999, 12, 1⟩).index)) ∧
    ∀ (r : Registry) (s : Scenario α) (first last : Date) (opening : α),
      r.wire s.events = .ok () → first.HasMonth → last.HasMonth →
      (0 ≤ first.year → ∃ run, s.Yields r first last opening run) ∧
      ∀ run, s.writtenRun r first last opening = .ok run →
        ∀ (type name : String) (amount : α) (start : Date) (metadata : Option Value) (e : Event α),
          start.HasMonth →
          Event.recurring type name amount start none (.text Recurrence.monthly.name) []
            metadata = .ok e → e ∈ s.events →
          ∀ m ∈ Date.months first last, ∃ t ∈ run.cashflow.get? m.key,
            (e ∈ t.events ↔
              start.index ≤ m.index ∧ m.index ≤ Date.index ⟨2999, 12, 1⟩) := by
  refine ⟨fun start stop moment hstart hstop hm => inRange_iff hm hstart hstop, ?_⟩
  intro r s first last opening hw hf hl
  refine ⟨fun hy => ⟨_, yields_trace opening hw hf hl hy⟩, ?_⟩
  intro run hrun type name amount start metadata e hstart he hmem m hm
  obtain rfl := eq_of_writtenRun_ok hf hl hrun
  obtain rfl := recurring_eq he
  refine ⟨_, get?_cashflow opening Date.nodup_keys _ hm, ?_⟩
  have hrange : (⟨name, type, amount, Recurrence.monthly.name, [.dateInRange start none],
      metadata⟩ : Event α).conditions = [.dateInRange start none] := rfl
  rw [mem_events_entry, mem_ofTurns_iff fun H =>
    fires_monthly_iff H rfl hrange (Date.mem_months.1 hm).1 hstart (by simp)]
  exact and_iff_right (mem_turns.2 ⟨hm, hmem⟩)

/-- Due from November 2999 on, as long as the tenant stays. -/
def rent : Event Rat :=
  { name := "Rent", type := "expense", amount := 1, recurrence := "monthly",
    conditions := [.dateInRange ⟨2999, 11, 1⟩ none] }

def tenant : Scenario Rat where
  name := "Tenant"
  events := [rent]

theorem openRange_closes_tenant :
    ∃ run, tenant.writtenRun .full ⟨2999, 10, 1⟩ ⟨3000, 1, 31⟩ 0 = .ok run ∧
      ∀ m ∈ Date.months ⟨2999, 10, 1⟩ ⟨3000, 1, 31⟩, ∃ t ∈ run.cashflow.get? m.key,
        (rent ∈ t.events ↔ m.key = "2999-11" ∨ m.key = "2999-12") := by
  have hf : Date.HasMonth ⟨2999, 10, 1⟩ := by decide
  have hl : Date.HasMonth ⟨3000, 1, 31⟩ := by decide
  have hdue : ∀ m ∈ Date.months ⟨2999, 10, 1⟩ ⟨3000, 1, 31⟩,
      (Date.index ⟨2999, 11, 1⟩ ≤ m.index ∧ m.index ≤ Date.index ⟨2999, 12, 1⟩ ↔
        m.key = "2999-11" ∨ m.key = "2999-12") := by
    decide +kernel
  obtain ⟨hyields, hfires⟩ := openRange_closes.2 .full tenant _ _ 0 rfl hf hl
  obtain ⟨run, hrun⟩ := hyields (by decide)
  have hrun := hrun.written (by decide +kernel)
  refine ⟨run, hrun, fun m hm => ?_⟩
  obtain ⟨t, ht, hrent⟩ := hfires run hrun "expense" "Rent" 1 ⟨2999, 11, 1⟩ none rent (by decide)
    rfl (List.mem_singleton_self rent) m hm
  exact ⟨t, ht, hrent.trans (hdue m hm)⟩

end Cashflow

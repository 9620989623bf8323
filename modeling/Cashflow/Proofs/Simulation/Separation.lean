import Cashflow.Proofs.Simulation.Outcome
import Cashflow.Proofs.Simulation.Dependence

/-!
# The first pass by itself

Turns of one kind that look at firings of their kind only fire as they would if there were no
others: the firings of the kind are the trace of its turns (`filter_ofTurns`).

An event without a balance condition looks at the calendar and, through its recurrence, at the
firings of its own name (`fires_iff_of_named_eq`). So where no event with a balance condition has
the name of one without, the firings of the first pass are those of a scenario that has the first
pass only (`filter_firstPass`), and no second pass and no opening balance changes them
(`firstPass_noninterference`).
-/

namespace Cashflow
open Trace

namespace Trace

/-! ## Turns of one kind -/

section Kind
variable {α : Type} [Amount α] {opening opening' : α} {p : Turn α → Bool} {H : Trace α} {t : Turn α}

theorem filter_visit_of_pos (hp : p t = true)
    (h : Fires opening H t ↔ Fires opening' (H.filter p) t) :
    (visit opening H t).filter p = visit opening' (H.filter p) t := by
  by_cases hf : Fires opening H t
  · rw [visit_of_fires hf, visit_of_fires (h.1 hf), List.filter_append, List.filter_cons_of_pos hp,
      List.filter_nil]
  · rw [visit_of_not_fires hf, visit_of_not_fires (mt h.2 hf)]

theorem filter_visit_of_neg (hp : ¬ p t = true) : (visit opening H t).filter p = H.filter p := by
  by_cases hf : Fires opening H t
  · rw [visit_of_fires hf, List.filter_append, List.filter_cons_of_neg hp, List.filter_nil,
      List.append_nil]
  · rw [visit_of_not_fires hf]

/-- What the turns of a kind add to the trace of all turns, if they look at their own kind only. -/
theorem filter_ofTurns {ts : List (Turn α)}
    (h : ∀ t ∈ ts, p t = true → ∀ H : Trace α, H ⊆ ts →
      (Fires opening H t ↔ Fires opening' (H.filter p) t)) :
    (ofTurns opening ts).filter p = ofTurns opening' (ts.filter p) := by
  induction ts using List.reverseRecOn with
  | nil => rfl
  | append_singleton ts t ih =>
    have hts : ts ⊆ ts ++ [t] := List.subset_append_left ts [t]
    have hH : ofTurns opening ts ⊆ ts ++ [t] :=
      List.Subset.trans (sublist_ofTurns opening ts).subset hts
    have ih := ih fun u hu hp H hH => h u (hts hu) hp H (List.Subset.trans hH hts)
    rw [ofTurns_concat, List.filter_append]
    by_cases hp : p t = true
    · rw [filter_visit_of_pos hp (h t (List.mem_append_right ts List.mem_cons_self) hp _ hH), ih,
        List.filter_cons_of_pos hp, List.filter_nil, ofTurns_concat]
    · rw [filter_visit_of_neg hp, ih, List.filter_cons_of_neg hp, List.filter_nil, List.append_nil]

end Kind

section Parts
variable {α : Type}

/-- The turns of some of the events. -/
theorem filter_turns (months : List Date) (events : List (Event α)) (q : Event α → Bool) :
    (turns months events).filter (fun t => q t.event) = turns months (events.filter q) := by
  rw [turns, turns, List.filter_flatMap]
  congr 1
  funext m
  rw [List.filter_map, List.filter_comm (fun e => !e.isBalanceGated) q,
    List.filter_comm Event.isBalanceGated q, ← List.filter_append]
  rfl

/-- The turns of one of the months. -/
theorem during_turns {months : List Date} (hn : months.Nodup) {m : Date} (hm : m ∈ months)
    (events : List (Event α)) : during (turns months events) m = turns [m] events := by
  obtain ⟨before, after, rfl⟩ := List.append_of_mem hm
  obtain ⟨hnb, hna⟩ : m ∉ before ∧ m ∉ after := by
    have := List.perm_middle.nodup_iff.1 hn
    rw [List.nodup_cons, List.mem_append, not_or] at this
    exact this.1
  have hother : ∀ {ms : List Date}, m ∉ ms → during (turns ms events) m = [] := fun h =>
    during_eq_nil fun t ht he => h (he ▸ (mem_turns.1 ht).1)
  have hself : during (turns [m] events) m = turns [m] events :=
    during_eq_self fun t ht => List.mem_singleton.1 (mem_turns.1 ht).1
  rw [turns_append, turns_cons, during_append, during_append, hother hnb, hother hna, hself,
    List.nil_append, List.append_nil]

end Parts

end Trace

/-! ## The first pass -/

section Parts
variable {α : Type}

/-- No event of the second pass has the name of one of the first. -/
def NamesApart (events : List (Event α)) : Prop :=
  ∀ a ∈ (passes events).1, ∀ b ∈ (passes events).2, a.name ≠ b.name

instance (events : List (Event α)) : Decidable (NamesApart events) :=
  inferInstanceAs (Decidable (∀ _ ∈ _, ∀ _ ∈ _, _))

/-- Some of the events of both passes, in order, are those of the first, then those of the
second. -/
theorem passes_append_of_sublist {events listed : List (Event α)}
    (h : listed.Sublist ((passes events).1 ++ (passes events).2)) :
    listed = (passes listed).1 ++ (passes listed).2 := by
  obtain ⟨A, B, rfl, hA, hB⟩ := List.sublist_append_iff.1 h
  have hfree : ∀ e ∈ A, e.isBalanceGated = false := by
    intro e he
    simpa using (List.mem_filter.1 (hA.mem he)).2
  have hgated : ∀ e ∈ B, e.isBalanceGated = true := fun e he => (List.mem_filter.1 (hB.mem he)).2
  have h₁ : (passes (A ++ B)).1 = A := by
    show (A ++ B).filter (fun e => !e.isBalanceGated) = A
    rw [List.filter_append, List.filter_eq_self.2 (by simpa using hfree),
      List.filter_eq_nil_iff.2 (by simpa using hgated), List.append_nil]
  have h₂ : (passes (A ++ B)).2 = B := by
    show (A ++ B).filter Event.isBalanceGated = B
    rw [List.filter_append, List.filter_eq_nil_iff.2 (by simpa using hfree),
      List.filter_eq_self.2 hgated, List.nil_append]
  rw [h₁, h₂]

end Parts

variable {α : Type} [Amount α]

namespace Trace
variable {opening : α} {events : List (Event α)}

/-- The firings of the first pass are those of a scenario without a second. -/
theorem filter_firstPass (opening opening' : α) (months : List Date) (hn : NamesApart events) :
    (ofTurns opening (turns months events)).filter (fun t => !t.event.isBalanceGated) =
      ofTurns opening' (turns months (passes events).1) := by
  have hfirst := filter_turns months events fun e => !e.isBalanceGated
  rw [passes, ← hfirst]
  apply filter_ofTurns
  intro t ht hfree H hH
  have hfree' : t.event.isBalanceGated = false := by simpa using hfree
  refine fires_iff_of_named_eq hfree' ?_
  refine (named_filter_of_forall fun u hu hname => ?_).symm
  by_contra hgated
  have hu' : u.event ∈ (passes events).2 :=
    List.mem_filter.2 ⟨(mem_turns.1 (hH hu)).2, by simpa using hgated⟩
  have ht' : t.event ∈ (passes events).1 := List.mem_filter.2 ⟨(mem_turns.1 ht).2, hfree⟩
  exact hn _ ht' _ hu' hname.symm

/-- The entry of a month lists firings of the first pass, then firings of the second. -/
theorem events_entry_eq {months : List Date} (hn : months.Nodup) {m : Date} (hm : m ∈ months) :
    ((ofTurns opening (turns months events)).entry m).events =
      (passes ((ofTurns opening (turns months events)).entry m).events).1 ++
        (passes ((ofTurns opening (turns months events)).entry m).events).2 := by
  have hlisted : ((turns [m] events).map Turn.event) = (passes events).1 ++ (passes events).2 := by
    rw [turns_singleton, List.map_map]
    exact List.map_id _
  apply passes_append_of_sublist
  rw [← hlisted, ← during_turns hn hm]
  exact ((sublist_ofTurns opening (turns months events)).filter _).map Turn.event

/-- The listed events of a kind are those of the firings of the kind. -/
theorem filter_events_entry (H : Trace α) (m : Date) (q : Event α → Bool) :
    (H.entry m).events.filter q = (Trace.entry (H.filter fun t => q t.event) m).events := by
  show ((H.during m).map Turn.event).filter q = _
  rw [List.filter_map, Trace.entry, during_filter]
  rfl

theorem passes_entry (H : Trace α) (m : Date) :
    (passes (H.entry m).events).1 =
      (Trace.entry (H.filter fun t => !t.event.isBalanceGated) m).events :=
  filter_events_entry H m fun e => !e.isBalanceGated

end Trace

/-- Scenarios with one first pass have one course of first passes: whatever their second passes are,
as long as they leave the names of the first alone, and whatever the balances are. -/
theorem firstPass_noninterference (r : Registry) (s s' : Scenario α) {first last : Date}
    (opening opening' : α) (hw : r.wire s.events = .ok ()) (hw' : r.wire s'.events = .ok ())
    (hn : NamesApart s.events) (hn' : NamesApart s'.events)
    (hsame : (passes s.events).1 = (passes s'.events).1)
    (hf : first.HasMonth) (hl : last.HasMonth) (hy : 0 ≤ first.year) :
    ∃ run run', s.Yields r first last opening run ∧ s'.Yields r first last opening' run' ∧
      run.cashflow.keys = Date.keys first last ∧ run'.cashflow.keys = Date.keys first last ∧
      ∀ m ∈ Date.months first last,
        ∃ t ∈ run.cashflow.get? m.key, ∃ t' ∈ run'.cashflow.get? m.key,
          t.events = (passes t.events).1 ++ (passes t.events).2 ∧
          t'.events = (passes t'.events).1 ++ (passes t'.events).2 ∧
          (passes t.events).1 = (passes t'.events).1 := by
  have hk : ((Date.months first last).map Date.key).Nodup := Date.nodup_keys
  refine ⟨_, _, yields_trace opening hw hf hl hy, yields_trace opening' hw' hf hl hy,
    keys_cashflow opening hk _, keys_cashflow opening' hk _, fun m hm => ?_⟩
  refine ⟨_, get?_cashflow opening hk _ hm, _, get?_cashflow opening' hk _ hm,
    events_entry_eq Date.nodup_months hm, events_entry_eq Date.nodup_months hm, ?_⟩
  rw [passes_entry, passes_entry, filter_firstPass opening 0 _ hn,
    filter_firstPass opening' 0 _ hn', hsame]

/-- The incomes of the household, spent on cruises as often as there is money for one. -/
def traveller : Scenario Rat where
  name := "Traveller"
  events := [
    { name := "Cruise", type := "expense", amount := 700, recurrence := "monthly",
      conditions := [.networthIsAbove "Bonus" 800] },
    { name := "Salary", type := "income", amount := 250, recurrence := "monthly",
      conditions := [.dateInRange ⟨2025, 1, 10⟩ none] },
    { name := "Spa", type := "expense", amount := 20, recurrence := "once",
      conditions := [.eventHappened "Cruise"] },
    { name := "Bonus", type := "income", amount := 90, recurrence := "yearly",
      conditions := [.dateInRange ⟨2025, 3, 1⟩ (some ⟨2030, 1, 1⟩)] }]

theorem firstPass_noninterference_traveller :
    ∃ run run', household.Yields .full ⟨2025, 1, 15⟩ ⟨2025, 3, 2⟩ 0 run ∧
      traveller.Yields .full ⟨2025, 1, 15⟩ ⟨2025, 3, 2⟩ 900 run' ∧
      (∀ m ∈ Date.months ⟨2025, 1, 15⟩ ⟨2025, 3, 2⟩,
        ∃ t ∈ run.cashflow.get? m.key, ∃ t' ∈ run'.cashflow.get? m.key,
          (passes t.events).1 = (passes t'.events).1) ∧
      run.cashflow.values.map (fun t => t.events.map Event.name) =
        [["Salary"], ["Salary", "Car", "Insurance"], ["Salary", "Bonus", "Insurance"]] ∧
      run'.cashflow.values.map (fun t => t.events.map Event.name) =
        [["Salary", "Cruise", "Spa"], ["Salary"], ["Salary", "Bonus", "Cruise"]] := by
  have hf : Date.HasMonth ⟨2025, 1, 15⟩ := by decide
  have hl : Date.HasMonth ⟨2025, 3, 2⟩ := by decide
  obtain ⟨run, run', h, h', -, -, hsame⟩ := firstPass_noninterference .full household traveller
    0 900 rfl rfl (by decide) (by decide) rfl hf hl (by decide)
  refine ⟨run, run', h, h', fun m hm => ?_, ?_, ?_⟩
  · obtain ⟨t, ht, t', ht', -, -, hpasses⟩ := hsame m hm
    exact ⟨t, ht, t', ht', hpasses⟩
  · rw [h.unique (yields_trace 0 rfl hf hl (by decide))]
    decide +kernel
  · rw [h'.unique (yields_trace 900 rfl hf hl (by decide))]
    decide +kernel

end Cashflow

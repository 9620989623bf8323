import Cashflow.Proofs.Ledger.Conservation
import Cashflow.Proofs.Simulation.Separation

/-!
# The order of the first pass

Where no two events of the first pass share a name, their order does not matter
(`firstPass_reordering`): amounts, balances and the firing history of every name are the same, and
so is the second pass, although it may look at all of these.

What a turn can tell apart are the firings of a name in their order and the sum of all amounts. Two
traces that agree on the former (`Alike`) have the same firings, so without rounding they agree on
the latter (`Alike.balance_eq`). Turns of the first pass with different names may be swapped
(`alike_visit_swap`), hence permuted within a month (`Alike.foldl_visit_perm`), and so month by
month (`alike_ofTurns`).
-/

namespace Cashflow
open Trace

namespace Trace

/-- The traces have the same firings of each name and the same firings of the second pass, both in
order. -/
structure Alike {α : Type} (H K : Trace α) : Prop where
  named : ∀ name, H.named name = K.named name
  gated : H.filter (fun t => t.event.isBalanceGated) = K.filter fun t => t.event.isBalanceGated

namespace Alike

section Parts
variable {α : Type} {H K L : Trace α}

theorem refl (H : Trace α) : Alike H H := ⟨fun _ => rfl, rfl⟩

theorem trans (h : Alike H K) (h' : Alike K L) : Alike H L :=
  ⟨fun name => (h.named name).trans (h'.named name), h.gated.trans h'.gated⟩

theorem concat (h : Alike H K) (t : Turn α) : Alike (H ++ [t]) (K ++ [t]) where
  named name := by rw [named_append, named_append, h.named]
  gated := by rw [List.filter_append, List.filter_append, h.gated]

theorem filter (h : Alike H K) (p : Turn α → Bool) : Alike (H.filter p) (K.filter p) where
  named name := by
    rw [Trace.named, Trace.named, List.filter_comm, ← Trace.named, h.named, Trace.named,
      List.filter_comm]
  gated := by rw [List.filter_comm, h.gated, List.filter_comm]

theorem during (h : Alike H K) (month : Date) : Alike (H.during month) (K.during month) :=
  h.filter _

theorem upTo (h : Alike H K) (month : Date) : Alike (H.upTo month) (K.upTo month) := h.filter _

/-- Every firing is counted among those of its name. -/
theorem perm (h : Alike H K) : H.Perm K := by
  classical
  refine List.perm_iff_count.2 fun t => ?_
  have hcount : ∀ J : Trace α, (J.named t.event.name).count t = J.count t := fun J =>
    List.count_filter (decide_eq_true rfl)
  rw [← hcount H, h.named, hcount K]

theorem history_get?_eq (h : Alike H K) (name : String) :
    H.history.get? name = K.history.get? name := by
  rw [get?_history, get?_history, h.named]

end Parts

variable {H K : Trace Rat} {opening : Rat}

theorem balance_eq (h : Alike H K) : H.balance opening = K.balance opening := by
  rw [balance, balance, Amount.foldl_add_eq, Amount.foldl_add_eq]
  congr 1
  exact Amount.total_perm (h.perm.map _)

theorem fires_iff (h : Alike H K) (t : Turn Rat) : Fires opening H t ↔ Fires opening K t :=
  AgreeOn.fires_iff ⟨h.named _, fun _ _ name _ => h.named name, fun _ => h.balance_eq⟩

theorem visit (h : Alike H K) (t : Turn Rat) :
    Alike (Trace.visit opening H t) (Trace.visit opening K t) := by
  by_cases hf : Fires opening H t
  · rw [visit_of_fires hf, visit_of_fires ((h.fires_iff t).1 hf)]
    exact h.concat t
  · rw [visit_of_not_fires hf, visit_of_not_fires (mt (h.fires_iff t).2 hf)]
    exact h

theorem foldl_visit (h : Alike H K) (ts : List (Turn Rat)) :
    Alike (ts.foldl (Trace.visit opening) H) (ts.foldl (Trace.visit opening) K) := by
  induction ts generalizing H K with
  | nil => exact h
  | cons t ts ih => exact ih (h.visit t)

end Alike

/-! ## Turns of the first pass -/

section Swap
variable {α : Type} [Amount α] {opening : α} {H : Trace α} {t u : Turn α}

theorem named_visit_of_ne {name : String} (hne : t.event.name ≠ name) :
    named (visit opening H t) name = H.named name := by
  by_cases hf : Fires opening H t
  · have hnil : named [t] name = [] := named_eq_nil_iff.2 (List.forall_mem_singleton.2 hne)
    rw [visit_of_fires hf, named_append, hnil, List.append_nil]
  · rw [visit_of_not_fires hf]

/-- A turn of the first pass does not see the turn of another name before it. -/
theorem fires_visit_iff (hu : u.event.isBalanceGated = false) (hne : t.event.name ≠ u.event.name) :
    Fires opening (visit opening H t) u ↔ Fires opening H u :=
  fires_iff_of_named_eq hu (named_visit_of_ne hne)

omit [Amount α] in
theorem alike_swap (ht : t.event.isBalanceGated = false) (hu : u.event.isBalanceGated = false)
    (hne : t.event.name ≠ u.event.name) : Alike (H ++ [t] ++ [u]) (H ++ [u] ++ [t]) where
  named name := by
    by_cases hname : t.event.name = name
    · have hnil : Trace.named [u] name = [] :=
        named_eq_nil_iff.2 (List.forall_mem_singleton.2 fun h => hne (hname.trans h.symm))
      simp only [named_append, hnil, List.append_nil]
    · have hnil : Trace.named [t] name = [] :=
        named_eq_nil_iff.2 (List.forall_mem_singleton.2 hname)
      simp only [named_append, hnil, List.append_nil]
  gated := by simp [ht, hu]

theorem alike_visit_swap (ht : t.event.isBalanceGated = false) (hu : u.event.isBalanceGated = false)
    (hne : t.event.name ≠ u.event.name) :
    Alike (visit opening (visit opening H t) u) (visit opening (visit opening H u) t) := by
  have hut : Fires opening (visit opening H t) u ↔ Fires opening H u := fires_visit_iff hu hne
  have htu : Fires opening (visit opening H u) t ↔ Fires opening H t :=
    fires_visit_iff ht hne.symm
  by_cases hft : Fires opening H t
  · by_cases hfu : Fires opening H u
    · rw [visit_of_fires (hut.2 hfu), visit_of_fires (htu.2 hft), visit_of_fires hft,
        visit_of_fires hfu]
      exact alike_swap ht hu hne
    · rw [visit_of_not_fires (mt hut.1 hfu), visit_of_fires (htu.2 hft), visit_of_fires hft,
        visit_of_not_fires hfu]
      exact Alike.refl _
  · rw [visit_of_not_fires (mt htu.1 hft), visit_of_not_fires hft]
    exact Alike.refl _

end Swap

section Permuted
variable {opening : Rat} {H K : Trace Rat}

theorem Alike.foldl_visit_perm {ts us : List (Turn Rat)} (hp : ts.Perm us)
    (hfree : ∀ t ∈ ts, t.event.isBalanceGated = false)
    (hn : (ts.map fun t => t.event.name).Nodup) (h : Alike H K) :
    Alike (ts.foldl (Trace.visit opening) H) (us.foldl (Trace.visit opening) K) := by
  induction hp generalizing H K with
  | nil => exact h
  | cons t _ ih =>
    rw [List.map_cons, List.nodup_cons] at hn
    exact ih (List.forall_mem_cons.1 hfree).2 hn.2 (h.visit t)
  | swap t u ts =>
    obtain ⟨hu, ht, -⟩ := by simpa only [List.forall_mem_cons] using hfree
    have hne : u.event.name ≠ t.event.name := fun he => by simp [he] at hn
    exact ((alike_visit_swap hu ht hne).trans ((h.visit t).visit u)).foldl_visit ts
  | trans hp _ ih ih' =>
    have hfree' := fun t ht => hfree t (hp.mem_iff.2 ht)
    exact (ih hfree hn h).trans (ih' hfree' ((hp.map _).nodup_iff.1 hn) (Alike.refl K))

variable {events events' : List (Event Rat)} (hperm : (passes events).1.Perm (passes events').1)
  (hn : ((passes events).1.map Event.name).Nodup) (hgated : (passes events).2 = (passes events').2)
include hperm hn hgated

theorem alike_month (month : Date) (h : Alike H K) :
    Alike ((turns [month] events).foldl (visit opening) H)
      ((turns [month] events').foldl (visit opening) K) := by
  rw [turns_singleton, turns_singleton, List.map_append, List.map_append, List.foldl_append,
    List.foldl_append, hgated]
  refine Alike.foldl_visit (Alike.foldl_visit_perm (hperm.map _) ?_ ?_ h) _
  · intro t ht
    obtain ⟨e, he, rfl⟩ := List.mem_map.1 ht
    exact not_gated_of_mem_firstPass he
  · rw [List.map_map]
    exact hn

theorem alike_ofTurns (months : List Date) :
    Alike (ofTurns opening (turns months events)) (ofTurns opening (turns months events')) := by
  induction months using List.reverseRecOn with
  | nil => exact Alike.refl _
  | append_singleton months month ih =>
    rw [turns_append, turns_append, ofTurns_append, ofTurns_append]
    exact alike_month hperm hn hgated month ih

end Permuted

end Trace

section Parts
variable {α : Type}

theorem mem_passes_iff {events : List (Event α)} {e : Event α} :
    e ∈ events ↔ e ∈ (passes events).1 ∨ e ∈ (passes events).2 := by
  simp only [passes, List.mem_filter]
  cases e.isBalanceGated <;> simp

theorem Registry.wire_of_passes {r : Registry} {events events' : List (Event α)}
    (hw : r.wire events = .ok ()) (hperm : (passes events).1.Perm (passes events').1)
    (hgated : (passes events).2 = (passes events').2) : r.wire events' = .ok () := by
  rw [wire_eq_ok_iff] at hw ⊢
  intro e he
  rw [mem_passes_iff, ← hperm.mem_iff, ← hgated, ← mem_passes_iff] at he
  exact hw e he

end Parts

/-- Scenarios with the same second pass whose first passes differ in their order only have the same
ledger but for the order in which the months list the first pass, the same balances, and the same
firing history of every name. -/
theorem firstPass_reordering (r : Registry) (s s' : Scenario Rat) {first last : Date}
    (opening : Rat) (hw : r.wire s.events = .ok ())
    (hperm : (passes s.events).1.Perm (passes s'.events).1)
    (hn : ((passes s.events).1.map Event.name).Nodup)
    (hgated : (passes s.events).2 = (passes s'.events).2)
    (hf : first.HasMonth) (hl : last.HasMonth) (hy : 0 ≤ first.year) :
    ∃ run run', s.Yields r first last opening run ∧ s'.Yields r first last opening run' ∧
      run.cashflow.keys = Date.keys first last ∧ run'.cashflow.keys = Date.keys first last ∧
      (∀ m ∈ Date.months first last,
        ∃ t ∈ run.cashflow.get? m.key, ∃ t' ∈ run'.cashflow.get? m.key,
          t.amount = t'.amount ∧
          t.events = (passes t.events).1 ++ (passes t.events).2 ∧
          t'.events = (passes t'.events).1 ++ (passes t'.events).2 ∧
          (passes t.events).1.Perm (passes t'.events).1 ∧
          (passes t.events).2 = (passes t'.events).2) ∧
      run.balances = run'.balances ∧
      ∀ name, run.history.get? name = run'.history.get? name := by
  have hk : ((Date.months first last).map Date.key).Nodup := Date.nodup_keys
  have hw' : r.wire s'.events = .ok () := Registry.wire_of_passes hw hperm hgated
  have h : Alike (ofTurns opening (turns (Date.months first last) s.events))
      (ofTurns opening (turns (Date.months first last) s'.events)) :=
    alike_ofTurns hperm hn hgated _
  refine ⟨_, _, yields_trace opening hw hf hl hy, yields_trace opening hw' hf hl hy,
    keys_cashflow opening hk _, keys_cashflow opening hk _, fun m hm => ?_, ?_,
    h.history_get?_eq⟩
  · have hm' := h.during m
    refine ⟨_, get?_cashflow opening hk _ hm, _, get?_cashflow opening hk _ hm, ?_,
      events_entry_eq Date.nodup_months hm, events_entry_eq Date.nodup_months hm, ?_, ?_⟩
    · exact Amount.total_perm (hm'.perm.map _)
    · exact (hm'.perm.map Turn.event).filter _
    · show ((Trace.during _ m).map Turn.event).filter Event.isBalanceGated =
        ((Trace.during _ m).map Turn.event).filter Event.isBalanceGated
      rw [List.filter_map, List.filter_map]
      exact congrArg _ hm'.gated
  · refine Keyed.ext_entries ?_
    show (Books.balances _).entries = (Books.balances _).entries
    rw [entries_balances opening hk, entries_balances opening hk]
    exact List.map_congr_left fun m _ => congrArg _ (h.upTo m).balance_eq

/-- The household with its incomes declared first, the bonus before the salary. -/
def householdByIncome : Scenario Rat where
  name := "Household"
  events := [household.events[3], household.events[2], household.events[0], household.events[1]]

theorem firstPass_reordering_household :
    ∃ run run', household.Yields .full ⟨2025, 1, 15⟩ ⟨2025, 3, 2⟩ 0 run ∧
      householdByIncome.Yields .full ⟨2025, 1, 15⟩ ⟨2025, 3, 2⟩ 0 run' ∧
      run.balances = run'.balances ∧
      (∀ name, run.history.get? name = run'.history.get? name) ∧
      run.cashflow.values.map (fun t => t.events.map Event.name) =
        [["Salary"], ["Salary", "Car", "Insurance"], ["Salary", "Bonus", "Insurance"]] ∧
      run'.cashflow.values.map (fun t => t.events.map Event.name) =
        [["Salary"], ["Salary", "Car", "Insurance"], ["Bonus", "Salary", "Insurance"]] := by
  have hf : Date.HasMonth ⟨2025, 1, 15⟩ := by decide
  have hl : Date.HasMonth ⟨2025, 3, 2⟩ := by decide
  obtain ⟨run, run', h, h', -, -, -, hbalances, hhistory⟩ := firstPass_reordering .full household
    householdByIncome 0 rfl (.swap ..) (by decide) rfl hf hl (by decide)
  refine ⟨run, run', h, h', hbalances, hhistory, ?_, ?_⟩
  · rw [h.unique (yields_trace 0 rfl hf hl (by decide))]
    decide +kernel
  · rw [h'.unique (yields_trace 0 rfl hf hl (by decide))]
    decide +kernel

end Cashflow

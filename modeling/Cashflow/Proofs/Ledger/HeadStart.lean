import Mathlib.Algebra.Order.BigOperators.Group.List
import Mathlib.Data.List.Nodup
import Mathlib.Data.List.Perm.Subperm
import Mathlib.Tactic.Linarith
import Cashflow.Proofs.Ledger.Conservation
import Cashflow.Proofs.Simulation.Months
import Cashflow.Proofs.Simulation.Separation
import Cashflow.Proofs.Simulation.Session

/-!
# Head starts

Where the events with a balance condition are incomes, and none of them looks at the other incomes
of the month (`Scenario.GatesIncomes`), more money at the start is more money ever after: of two runs
over one window, the one that opens with more closes no month with less, and up to each month every
event has fired in it at least as often (`balances_le_of_opening_le`).

The two runs may fire an income in different months, so their traces are compared by what has fired
and not by when: `K.Outdoes H` says that they have the same firings of the events without a balance
condition, and that every other event fired in `K` at least as often as in `H`. A turn keeps it
(`Outdoes.visit`): where an income that comes once fires in `H` alone, its gate is shut in `K` by a
firing that `H` did not have. So the turns of all months keep it (`outdoes_ofTurns`).
-/

namespace Cashflow

/-- No two events share a name, only incomes that are not below zero have balance conditions, and no
condition is about an income of the month. -/
structure Scenario.GatesIncomes (s : Scenario Rat) : Prop where
  names : s.names.Nodup
  income : ∀ e ∈ s.events, e.isBalanceGated = true → e.isIncome = true
  amount : ∀ e ∈ s.events, e.isBalanceGated = true → 0 ≤ e.amount
  conditions : ∀ e ∈ s.events, ∀ c ∈ e.conditions, c.kind ≠ .incomeIsAbove

/-- How often an event of the name is listed in the first `n` months. -/
def Run.timesListedIn {α : Type} [Amount α] (run : Run α) (n : Nat) (name : String) : Nat :=
  ((run.cashflow.values.take n).flatMap fun t => t.events).countP fun e => e.name = name

namespace Trace

/-! ## Traces with more firings -/

section Parts
variable {α : Type} {H K : Trace α} {t : Turn α}

/-- Without the events that have a balance condition the traces are the same, and of these events
`K` has the firings of `H`, whenever they were, and perhaps more. -/
structure Outdoes (K H : Trace α) : Prop where
  free : H.filter (fun t => !t.event.isBalanceGated) = K.filter fun t => !t.event.isBalanceGated
  events : (H.map Turn.event).Subperm (K.map Turn.event)

theorem filter_concat_of_gated (H : Trace α) (ht : t.event.isBalanceGated = true) :
    (H ++ [t]).filter (fun t => !t.event.isBalanceGated) =
      H.filter fun t => !t.event.isBalanceGated := by
  rw [List.filter_append, List.filter_cons_of_neg (by simp [ht]), List.filter_nil, List.append_nil]

namespace Outdoes
variable (h : K.Outdoes H)
include h

/-- What the one has fired besides. -/
theorem exists_surplus :
    ∃ R : List (Event α), (K.map Turn.event).Perm (H.map Turn.event ++ R) ∧
      ∀ e ∈ R, e.isBalanceGated = true := by
  obtain ⟨l, hl, hsub⟩ := h.events
  obtain ⟨R, hR⟩ := hsub.exists_perm_append
  have hperm : (K.map Turn.event).Perm (H.map Turn.event ++ R) := hR.trans (hl.append_right R)
  have hfree : ∀ L : Trace α, (L.map Turn.event).countP (fun e => !e.isBalanceGated) =
      (L.filter fun t => !t.event.isBalanceGated).length := by
    intro L
    rw [List.countP_map, List.countP_eq_length_filter]
    rfl
  have hcount := hperm.countP_eq fun e => !e.isBalanceGated
  rw [List.countP_append, hfree, hfree, h.free] at hcount
  have hzero : R.countP (fun e => !e.isBalanceGated) = 0 := by omega
  exact ⟨R, hperm, fun e he => by simpa using List.countP_eq_zero.1 hzero e he⟩

/-- What fired in the one fired in the other, at some time. -/
theorem mem (hu : t ∈ H) : ∃ u ∈ K, u.event = t.event :=
  List.mem_map.1 (h.events.subset (List.mem_map_of_mem hu))

theorem concat : Outdoes (K ++ [t]) (H ++ [t]) where
  free := by rw [List.filter_append, List.filter_append, h.free]
  events := by
    rw [List.map_append, List.map_append, List.subperm_append_right]
    exact h.events

variable (ht : t.event.isBalanceGated = true)
include ht

theorem concat_left : Outdoes (K ++ [t]) H where
  free := by rw [filter_concat_of_gated K ht, h.free]
  events := by
    rw [List.map_append]
    exact h.events.trans (List.sublist_append_left _ _).subperm

/-- A firing that the other trace has ahead. -/
theorem concat_right (hH : t.event ∉ H.map Turn.event) (hK : t.event ∈ K.map Turn.event) :
    Outdoes K (H ++ [t]) where
  free := by rw [filter_concat_of_gated H ht, h.free]
  events := by
    rw [List.map_append]
    exact List.perm_append_comm.subperm.trans (List.cons_subperm_of_not_mem_of_mem hH hK h.events)

end Outdoes

end Parts

section Turns
variable {α : Type} [Amount α] {a b : α} {H K : Trace α} {t : Turn α}

/-- A turn of an event without a balance condition fires in both traces or in none; one of an event
with one fires in the other trace too, unless it fired there before. -/
theorem Outdoes.visit (h : K.Outdoes H)
    (hfree : t.event.isBalanceGated = false → (Fires a H t ↔ Fires b K t))
    (hgated : t.event.isBalanceGated = true → Fires a H t →
      Fires b K t ∨ t.event ∉ H.map Turn.event ∧ t.event ∈ K.map Turn.event) :
    Outdoes (visit b K t) (visit a H t) := by
  by_cases hH : Fires a H t <;> by_cases hK : Fires b K t
  · rw [visit_of_fires hH, visit_of_fires hK]
    exact h.concat
  · rw [visit_of_fires hH, visit_of_not_fires hK]
    cases ht : t.event.isBalanceGated with
    | false => exact absurd ((hfree ht).1 hH) hK
    | true =>
      obtain ⟨hnot, hmem⟩ := (hgated ht hH).resolve_left hK
      exact h.concat_right ht hnot hmem
  · rw [visit_of_not_fires hH, visit_of_fires hK]
    cases ht : t.event.isBalanceGated with
    | false => exact absurd ((hfree ht).2 hK) hH
    | true => exact h.concat_left ht
  · rw [visit_of_not_fires hH, visit_of_not_fires hK]
    exact h

end Turns

theorem nodup_turns {α : Type} {months : List Date} {events : List (Event α)} (hm : months.Nodup)
    (he : events.Nodup) : (turns months events).Nodup := by
  rw [turns, List.nodup_flatMap]
  refine ⟨fun m _ => ?_, hm.imp fun hne t ht ht' => ?_⟩
  · have hperm := List.perm_append_comm.trans (List.filter_append_perm Event.isBalanceGated events)
    refine (hperm.nodup_iff.2 he).map fun e e' h => ?_
    exact congrArg Turn.event h
  · obtain ⟨e, -, rfl⟩ := List.mem_map.1 ht
    obtain ⟨e', -, he'⟩ := List.mem_map.1 ht'
    exact hne (congrArg Turn.month he').symm

/-! ## More money -/

section Exact
variable {s : Scenario Rat} (hs : s.GatesIncomes) {a b : Rat} {H K : Trace Rat} {t u : Turn Rat}
include hs

theorem event_eq_of_name_eq (hu : u.event ∈ s.events) (ht : t.event ∈ s.events)
    (h : u.event.name = t.event.name) : u.event = t.event :=
  List.inj_on_of_nodup_map hs.names hu ht h

variable (hK : ∀ u ∈ K, u.event ∈ s.events)
include hK

theorem Outdoes.balance_le (h : K.Outdoes H) (hab : a ≤ b) : H.balance a ≤ K.balance b := by
  obtain ⟨R, hR, hgated⟩ := h.exists_surplus
  have hsurplus : 0 ≤ Amount.total (R.map Event.signedAmount) := by
    rw [Amount.total_eq_sum]
    refine List.sum_nonneg fun x hx => ?_
    obtain ⟨e, he, rfl⟩ := List.mem_map.1 hx
    obtain ⟨u, hu, rfl⟩ := List.mem_map.1 (hR.symm.subset (List.mem_append_right _ he))
    rw [Event.signedAmount, if_pos (hs.income _ (hK u hu) (hgated _ he))]
    exact hs.amount _ (hK u hu) (hgated _ he)
  have hsigned : ∀ L : Trace Rat, L.signed = (L.map Turn.event).map Event.signedAmount := by
    intro L
    rw [List.map_map]
    rfl
  have htotal : Amount.total K.signed =
      Amount.total H.signed + Amount.total (R.map Event.signedAmount) := by
    rw [hsigned, hsigned, Amount.total_perm (hR.map _), List.map_append, Amount.total_append]
  rw [balance, balance, Amount.foldl_add_eq, Amount.foldl_add_eq, htotal]
  linarith

theorem Outdoes.holds (h : K.Outdoes H) (hab : a ≤ b) {month : Date} {c : Condition Rat}
    (hc : c.kind ≠ .incomeIsAbove) (hH : Holds a H month c) : Holds b K month c := by
  cases c with
  | dateIs d => exact hH
  | dateInRange first last => exact hH
  | networthIsAbove note x => exact lt_of_lt_of_le hH (h.balance_le hs hK hab)
  | eventHappened name =>
    obtain ⟨u, hu, rfl⟩ := hH
    obtain ⟨w, hw, he⟩ := h.mem hu
    exact ⟨w, hw, congrArg Event.name he⟩
  | incomeIsAbove name x => exact absurd rfl hc

/-- What its recurrence allows after `H` it allows after `K`, unless the event comes once and fired
in `K` alone. -/
theorem mayFire_or_fired (hallowed : K.Allowed) (ht : t.event ∈ s.events)
    (hnew : ∀ u ∈ K, u.event = t.event → u.month.month = t.month.month →
      u.month.year ≠ t.month.year) (h : H.MayFire t) :
    K.MayFire t ∨ t.event ∉ H.map Turn.event ∧ t.event ∈ K.map Turn.event := by
  rcases h with hr | ⟨hr, hnone⟩ | ⟨hr, range, hrange, hmonth, -⟩
  · exact Or.inl (mayFire_monthly hr)
  · by_cases hfired : ∀ u ∈ K, u.event.name ≠ t.event.name
    · exact Or.inl ((mayFire_once hr).2 hfired)
    · push Not at hfired
      obtain ⟨u, hu, hname⟩ := hfired
      refine Or.inr ⟨fun hmem => ?_, ?_⟩
      · obtain ⟨w, hw, he⟩ := List.mem_map.1 hmem
        exact hnone w hw (congrArg Event.name he)
      · exact List.mem_map.2 ⟨u, hu, event_eq_of_name_eq hs (hK u hu) ht hname⟩
  · refine Or.inl ((mayFire_yearly hr).2 ⟨range, hrange, hmonth, fun u hu => ?_⟩)
    obtain ⟨hu, hname⟩ := List.mem_filter.1 (List.mem_of_mem_getLast? hu)
    have he := event_eq_of_name_eq hs (hK u hu) ht (of_decide_eq_true hname)
    -- Its firings are in one month of the year.
    obtain ⟨before, after, hsplit⟩ := List.append_of_mem hu
    obtain ⟨range', hrange', hmonth', -⟩ :=
      (mayFire_yearly (he ▸ hr)).1 (hallowed before u after hsplit)
    rw [he] at hrange'
    obtain rfl : range = range' := Option.some.inj (hrange.symm.trans hrange')
    exact hnew u hu he (hmonth'.trans hmonth.symm)

theorem Outdoes.named_eq (h : K.Outdoes H) (hH : ∀ u ∈ H, u.event ∈ s.events)
    (ht : t.event ∈ s.events) (hfree : t.event.isBalanceGated = false) :
    H.named t.event.name = K.named t.event.name := by
  have hsame : ∀ L : Trace Rat, (∀ u ∈ L, u.event ∈ s.events) →
      named (L.filter fun u => !u.event.isBalanceGated) t.event.name = L.named t.event.name := by
    intro L hL
    refine named_filter_of_forall fun u hu hname => ?_
    rw [event_eq_of_name_eq hs (hL u hu) ht hname, hfree]
    rfl
  rw [← hsame H hH, ← hsame K hK, h.free]

omit hK in
/-- What fires from more money outdoes what fires from less, as long as no turn comes twice. -/
theorem outdoes_ofTurns (hab : a ≤ b) {ts : List (Turn Rat)} (hn : ts.Nodup)
    (hts : ∀ t ∈ ts, t.event ∈ s.events ∧ t.month.day = 1) :
    (ofTurns b ts).Outdoes (ofTurns a ts) := by
  induction ts using List.reverseRecOn with
  | nil => exact ⟨rfl, List.Subperm.refl _⟩
  | append_singleton ts t ih =>
    obtain ⟨hn, -, hnew⟩ := List.nodup_append.1 hn
    obtain ⟨hts, ht⟩ := List.forall_mem_append.1 hts
    obtain ⟨ht, hday⟩ := ht t (List.mem_singleton_self t)
    have hH : ∀ u ∈ ofTurns a ts, u.event ∈ s.events := fun u hu =>
      (hts u (mem_of_mem_ofTurns hu)).1
    have hK : ∀ u ∈ ofTurns b ts, u.event ∈ s.events := fun u hu =>
      (hts u (mem_of_mem_ofTurns hu)).1
    have ih := ih hn hts
    rw [ofTurns_concat, ofTurns_concat]
    refine ih.visit (fun hfree => ?_) fun _ hfires => ?_
    · exact fires_iff_of_named_eq hfree (ih.named_eq hs hK hH ht hfree)
    · -- The event has no other turn in the month.
      have hother : ∀ u ∈ ofTurns b ts, u.event = t.event → u.month.month = t.month.month →
          u.month.year ≠ t.month.year := by
        rintro ⟨⟨year, month, day⟩, e⟩ hu rfl rfl rfl
        have hmem := mem_of_mem_ofTurns hu
        obtain rfl : day = t.month.day := (hts _ hmem).2.trans hday.symm
        exact hnew _ hmem t (List.mem_singleton_self t) rfl
      have hmay := mayFire_or_fired hs hK (allowed_ofTurns b ts) ht hother hfires.1
      refine hmay.imp_left fun hmay => ⟨hmay, fun c hc => ?_⟩
      exact ih.holds hs hK hab (hs.conditions _ ht c hc) (hfires.2 c hc)

omit hK in
theorem outdoes_turns (hab : a ≤ b) {months : List Date} (hn : months.Nodup)
    (hday : ∀ m ∈ months, m.day = 1) :
    (ofTurns b (turns months s.events)).Outdoes (ofTurns a (turns months s.events)) :=
  outdoes_ofTurns hs hab (nodup_turns hn (List.Nodup.of_map _ hs.names)) fun _ ht =>
    ⟨(mem_turns.1 ht).2, hday _ (mem_turns.1 ht).1⟩

end Exact

theorem timesListedIn_books {α : Type} [Amount α] (scenario : String) (opening : α)
    {months : List Date} (hk : (months.map Date.key).Nodup) (events : List (Event α)) (n : Nat)
    (name : String) :
    (Run.ofBooks scenario opening
        ((ofTurns opening (turns months events)).books opening months)).timesListedIn n name =
      ((ofTurns opening (turns (months.take n) events)).map Turn.event).countP
        fun e => e.name = name := by
  have hn : (months.take n ++ months.drop n).Nodup := by
    rw [List.take_append_drop]
    exact List.Nodup.of_map _ hk
  have hfirst := flatMap_during_ofTurns opening hn events
  rw [List.take_append_drop] at hfirst
  rw [Run.timesListedIn, ← hfirst, List.map_flatMap]
  congr 1
  show (((ofTurns opening (turns months events)).books opening months).cashflow.values.take
    n).flatMap _ = _
  rw [values_cashflow opening hk, ← List.map_take, List.flatMap_map]
  rfl

end Trace

open Trace

/-- If only incomes have balance conditions, and none is about an income of the month, a run that
opens with more closes every month with at least as much, and up to each month every event has fired
in it at least as often. -/
theorem balances_le_of_opening_le (r : Registry) (s : Scenario Rat) {first last : Date} {a b : Rat}
    (hw : r.wire s.events = .ok ()) (hs : s.GatesIncomes) (hab : a ≤ b) (hf : first.HasMonth)
    (hl : last.HasMonth) (hy : 0 ≤ first.year) :
    ∃ poorer richer, s.Yields r first last a poorer ∧ s.Yields r first last b richer ∧
      (∀ run ∈ [poorer, richer],
        run.balances.keys = Date.keys first last ∧ run.cashflow.keys = Date.keys first last) ∧
      List.Forall₂ (· ≤ ·) poorer.balances.values richer.balances.values ∧
      ∀ n name, poorer.timesListedIn n name ≤ richer.timesListedIn n name := by
  have hk : ((Date.months first last).map Date.key).Nodup := Date.nodup_keys
  have hn : (Date.months first last).Nodup := Date.nodup_months
  have hday : ∀ m ∈ Date.months first last, m.day = 1 := fun m hm => (Date.mem_months.1 hm).2.1
  refine ⟨_, _, yields_trace a hw hf hl hy, yields_trace b hw hf hl hy, ?_, ?_, fun n name => ?_⟩
  · simp only [List.forall_mem_cons, List.not_mem_nil, false_imp_iff, implies_true, and_true]
    exact ⟨⟨keys_balances a hk _, keys_cashflow a hk _⟩, keys_balances b hk _, keys_cashflow b hk _⟩
  · show List.Forall₂ _ (Books.balances _).values (Books.balances _).values
    rw [values_balances a hk, values_balances b hk, List.forall₂_map_left_iff,
      List.forall₂_map_right_iff, List.forall₂_same]
    intro m hm
    obtain ⟨before, after, hsplit⟩ := List.append_of_mem hm
    have hascend : (Date.months first last).Pairwise (· < ·) := Date.months_ascend
    rw [hsplit, List.append_cons] at hn hday
    rw [hsplit] at hascend ⊢
    rw [upTo_ofTurns hascend, upTo_ofTurns hascend]
    refine (outdoes_turns hs hab hn.of_append_left ?_).balance_le hs ?_ hab
    · exact fun m' hm' => hday m' (List.mem_append_left _ hm')
    · exact fun u hu => (mem_turns.1 (mem_of_mem_ofTurns hu)).2
  · rw [timesListedIn_books s.name a hk, timesListedIn_books s.name b hk]
    have hmore := outdoes_turns hs hab (hn.sublist (List.take_sublist n _)) fun m hm =>
      hday m (List.mem_of_mem_take hm)
    exact hmore.events.countP_le _

/-- Above three hundred a bond pays a premium, and coupons from then on; the dividends of February
take three hundred and fifty. -/
def investor : Scenario Rat where
  name := "Investor"
  events := [
    { name := "Bond", type := "income", amount := 40, recurrence := "once",
      conditions := [.networthIsAbove "Wage" 300] },
    { name := "Rent", type := "expense", amount := 100, recurrence := "monthly" },
    { name := "Coupon", type := "income", amount := 5, recurrence := "monthly",
      conditions := [.eventHappened "Bond"] },
    { name := "Dividend", type := "income", amount := 20, recurrence := "yearly",
      conditions := [.dateInRange ⟨2025, 2, 1⟩ none, .networthIsAbove "Wage" 350] },
    { name := "Wage", type := "income", amount := 200, recurrence := "monthly" }]

theorem gatesIncomes_investor : investor.GatesIncomes where
  names := by decide
  income := by decide
  amount := by decide +kernel
  conditions := by decide

theorem balances_le_of_opening_le_investor :
    investor.GatesIncomes ∧
      ∃ poorer richer, investor.Yields .full ⟨2025, 1, 5⟩ ⟨2025, 4, 1⟩ 0 poorer ∧
        investor.Yields .full ⟨2025, 1, 5⟩ ⟨2025, 4, 1⟩ 250 richer ∧
        poorer.balances.values = [100, 200, 300, 445] ∧
        richer.balances.values = [395, 520, 625, 730] ∧
        List.Forall₂ (· ≤ ·) poorer.balances.values richer.balances.values ∧
        poorer.cashflow.values.map (fun t => t.events.map Event.name) =
          [["Rent", "Wage"], ["Rent", "Wage"], ["Rent", "Wage"],
            ["Rent", "Wage", "Bond", "Coupon"]] ∧
        richer.cashflow.values.map (fun t => t.events.map Event.name) =
          [["Rent", "Wage", "Bond", "Coupon"], ["Rent", "Wage", "Coupon", "Dividend"],
            ["Rent", "Wage", "Coupon"], ["Rent", "Wage", "Coupon"]] ∧
        ∀ n, poorer.timesListedIn n "Bond" ≤ richer.timesListedIn n "Bond" := by
  have hf : Date.HasMonth ⟨2025, 1, 5⟩ := by decide
  have hl : Date.HasMonth ⟨2025, 4, 1⟩ := by decide
  obtain ⟨poorer, richer, h, h', -, hbalances, htimes⟩ :=
    balances_le_of_opening_le .full investor (a := 0) (b := 250) rfl gatesIncomes_investor
      (by decide +kernel) hf hl (by decide)
  obtain rfl := h.unique (yields_trace 0 rfl hf hl (by decide))
  obtain rfl := h'.unique (yields_trace 250 rfl hf hl (by decide))
  exact ⟨gatesIncomes_investor, _, _, h, h', by decide +kernel, by decide +kernel, hbalances,
    by decide +kernel, by decide +kernel, fun n => htimes n "Bond"⟩

end Cashflow

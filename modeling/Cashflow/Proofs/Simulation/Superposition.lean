import Cashflow.Proofs.Ledger.Conservation
import Cashflow.Proofs.Simulation.Separation

/-!
# Superposition

Two scenarios that look neither at the balance nor at each other's names (`StandsApart`) run side by
side in any scenario that is put together from their events (`Superposes`): it fires what they fire,
each in its order, and its balance moves by the sum of their movements (`superposition`).

A turn of one of them looks at firings of its own scenario only, so the firings of that scenario are
the trace of its turns alone (`Superposes.filter_ofTurns`). What a trace adds to the balance is the
sum of what its two parts add (`Trace.total_signed_filter`).
-/

namespace Cashflow
open Trace

/-- The entries of two lists in one, those of each in their order. -/
inductive Interleaving {β : Type} : List β → List β → List β → Prop where
  | nil : Interleaving [] [] []
  | left {x : β} {as bs l : List β} (h : Interleaving as bs l) : Interleaving (x :: as) bs (x :: l)
  | right {x : β} {as bs l : List β} (h : Interleaving as bs l) : Interleaving as (x :: bs) (x :: l)

namespace Interleaving
variable {β : Type} {as bs l : List β}

theorem symm (h : Interleaving as bs l) : Interleaving bs as l := by
  induction h with
  | nil => exact .nil
  | left _ ih => exact .right ih
  | right _ ih => exact .left ih

theorem mem_iff (h : Interleaving as bs l) {x : β} : x ∈ l ↔ x ∈ as ∨ x ∈ bs := by
  induction h with
  | nil => simp
  | left _ ih => rw [List.mem_cons, ih, List.mem_cons, or_assoc]
  | right _ ih => rw [List.mem_cons, ih, List.mem_cons, or_left_comm]

theorem filter_eq {p : β → Bool} (h : Interleaving as bs l) (has : ∀ a ∈ as, p a = true)
    (hbs : ∀ b ∈ bs, p b = false) : l.filter p = as := by
  induction h with
  | nil => rfl
  | left _ ih =>
    obtain ⟨hx, has⟩ := List.forall_mem_cons.1 has
    rw [List.filter_cons_of_pos hx, ih has hbs]
  | right _ ih =>
    obtain ⟨hx, hbs⟩ := List.forall_mem_cons.1 hbs
    rw [List.filter_cons_of_neg (by simp [hx]), ih has hbs]

/-- Every list interleaves its entries of a kind with the others. -/
theorem of_filter (p : β → Bool) (l : List β) :
    Interleaving (l.filter p) (l.filter fun x => !p x) l := by
  induction l with
  | nil => exact .nil
  | cons x l ih =>
    cases hx : p x with
    | true =>
      rw [List.filter_cons_of_pos hx, List.filter_cons_of_neg (by simp [hx])]
      exact .left ih
    | false =>
      rw [List.filter_cons_of_neg (by simp [hx]), List.filter_cons_of_pos (by simp [hx])]
      exact .right ih

end Interleaving

/-! ## Scenarios apart -/

namespace Scenario
variable {α : Type}

/-- The event has a name of the scenario. -/
def hasName (s : Scenario α) (e : Event α) : Bool := s.names.contains e.name

/-- Neither its names nor the names that its conditions wait for are names of the other. -/
structure StandsApart (s s' : Scenario α) : Prop where
  named : ∀ e ∈ s.events, e.name ∉ s'.names
  awaited : ∀ e ∈ s.events, ∀ c ∈ e.conditions, ∀ name ∈ c.awaited?, name ∉ s'.names

/-- The scenario is put together from two that look neither at the balance nor at each other. -/
structure Superposes (r : Registry) (s s₁ s₂ : Scenario α) : Prop where
  merged : Interleaving s₁.events s₂.events s.events
  wired₁ : r.wire s₁.events = .ok ()
  wired₂ : r.wire s₂.events = .ok ()
  ignores₁ : ∀ e ∈ s₁.events, e.IgnoresBalance
  ignores₂ : ∀ e ∈ s₂.events, e.IgnoresBalance
  apart₁ : s₁.StandsApart s₂
  apart₂ : s₂.StandsApart s₁

theorem hasName_of_mem {s : Scenario α} {e : Event α} (he : e ∈ s.events) : s.hasName e = true :=
  List.contains_iff_mem.2 (List.mem_map_of_mem he)

theorem hasName_eq_false {s : Scenario α} {e : Event α} (he : e.name ∉ s.names) :
    s.hasName e = false := by
  simpa [hasName] using he

namespace Superposes
variable {r : Registry} {s s₁ s₂ : Scenario α} (h : s.Superposes r s₁ s₂)
include h

theorem symm : s.Superposes r s₂ s₁ :=
  ⟨h.merged.symm, h.wired₂, h.wired₁, h.ignores₂, h.ignores₁, h.apart₂, h.apart₁⟩

theorem wired : r.wire s.events = .ok () := by
  rw [Registry.wire_eq_ok_iff]
  intro e he
  rcases h.merged.mem_iff.1 he with he | he
  · exact Registry.defect?_of_wire h.wired₁ e he
  · exact Registry.defect?_of_wire h.wired₂ e he

theorem filter_events : s.events.filter s₁.hasName = s₁.events :=
  h.merged.filter_eq (fun _ he => hasName_of_mem he)
    fun e he => hasName_eq_false (h.apart₂.named e he)

theorem mem_of_hasName {e : Event α} (he : e ∈ s.events) (hname : s₁.hasName e = true) :
    e ∈ s₁.events := by
  rw [← h.filter_events]
  exact List.mem_filter.2 ⟨he, hname⟩

/-- An event has a name of one of the two and not of the other. -/
theorem hasName_eq_not {e : Event α} (he : e ∈ s.events) : s₂.hasName e = !s₁.hasName e := by
  rcases h.merged.mem_iff.1 he with he | he
  · rw [hasName_of_mem he, hasName_eq_false (h.apart₁.named e he)]
    rfl
  · rw [hasName_of_mem he, hasName_eq_false (h.apart₂.named e he)]
    rfl

variable [Amount α]

/-- The firings that belong to one of the two are those of running it alone, from any balance. -/
theorem filter_ofTurns (b b₁ : α) (months : List Date) :
    (ofTurns b (turns months s.events)).filter (fun t => s₁.hasName t.event) =
      ofTurns b₁ (turns months s₁.events) := by
  rw [← h.filter_events, ← filter_turns]
  refine Trace.filter_ofTurns fun t ht hname H hH => ?_
  have hmem : t.event ∈ s₁.events := h.mem_of_hasName (mem_turns.1 ht).2 hname
  -- Firings of a name that the other scenario does not have are firings of this one.
  have hkeeps : ∀ name, name ∉ s₂.names →
      H.named name = named (H.filter fun t => s₁.hasName t.event) name := by
    intro name hn
    refine (named_filter_of_forall fun u hu hname => ?_).symm
    rcases h.merged.mem_iff.1 (mem_turns.1 (hH hu)).2 with hu | hu
    · exact hasName_of_mem hu
    · exact absurd (List.mem_map_of_mem hu) (hname ▸ hn)
  refine AgreeOn.fires_iff ⟨hkeeps _ (h.apart₁.named _ hmem), fun c hc name hawaited => ?_,
    fun hsees => absurd (h.ignores₁ _ hmem) hsees⟩
  exact hkeeps name (h.apart₁.awaited _ hmem c hc name hawaited)

/-- What a month lists is what the two list in it, in turn. -/
theorem interleaving_events_entry (b b₁ b₂ : α) (months : List Date) (m : Date) :
    let H := ofTurns b (turns months s.events)
    let H₁ := ofTurns b₁ (turns months s₁.events)
    let H₂ := ofTurns b₂ (turns months s₂.events)
    (H.entry m).events.filter s₁.hasName = (H₁.entry m).events ∧
      (H.entry m).events.filter s₂.hasName = (H₂.entry m).events ∧
      Interleaving (H₁.entry m).events (H₂.entry m).events (H.entry m).events := by
  intro H H₁ H₂
  have h₁ : (H.entry m).events.filter s₁.hasName = (H₁.entry m).events := by
    rw [filter_events_entry, h.filter_ofTurns b b₁]
  have h₂ : (H.entry m).events.filter s₂.hasName = (H₂.entry m).events := by
    rw [filter_events_entry, h.symm.filter_ofTurns b b₂]
  refine ⟨h₁, h₂, ?_⟩
  have hrest : (H.entry m).events.filter s₂.hasName =
      (H.entry m).events.filter fun e => !s₁.hasName e := by
    refine List.filter_congr fun e he => h.hasName_eq_not ?_
    obtain ⟨t, ht, rfl⟩ := List.mem_map.1 he
    exact (mem_turns.1 (mem_of_mem_ofTurns (mem_during ht).1)).2
  rw [← h₁, ← h₂, hrest]
  exact Interleaving.of_filter _ _

end Superposes

end Scenario

/-! ## Balances -/

namespace Trace

/-- Without rounding, a balance is above the opening by the sum of what was fired. -/
theorem balance_sub (H : Trace Rat) (opening : Rat) :
    H.balance opening - opening = Amount.total H.signed := by
  rw [balance, Amount.foldl_add_eq]
  exact add_sub_cancel_left opening _

theorem total_signed_filter (H : Trace Rat) (p : Turn Rat → Bool) :
    Amount.total H.signed =
      Amount.total (signed (H.filter p)) + Amount.total (signed (H.filter fun t => !p t)) := by
  rw [← Amount.total_append, ← signed_append]
  exact Amount.total_perm ((List.filter_append_perm p H).symm.map _)

theorem ofTurns_of_ignoresBalance {α : Type} [Amount α] (b b' : α) (months : List Date)
    {events : List (Event α)} (hfree : ∀ e ∈ events, e.IgnoresBalance) :
    ofTurns b (turns months events) = ofTurns b' (turns months events) := by
  refine List.foldl_ext _ _ _ fun H t ht => ?_
  have hfires : Fires b H t ↔ Fires b' H t :=
    AgreeOn.fires_iff ⟨rfl, fun _ _ _ _ => rfl, fun hsees =>
      absurd (hfree _ (mem_turns.1 ht).2) hsees⟩
  exact if_congr hfires rfl rfl

end Trace

theorem Scenario.Superposes.balance_eq {r : Registry} {s s₁ s₂ : Scenario Rat}
    (h : s.Superposes r s₁ s₂) (b b₁ b₂ : Rat) (months : List Date) (m : Date) :
    ((ofTurns b (turns months s.events)).upTo m).balance b - b =
      (((ofTurns b₁ (turns months s₁.events)).upTo m).balance b₁ - b₁) +
        (((ofTurns b₂ (turns months s₂.events)).upTo m).balance b₂ - b₂) := by
  rw [balance_sub, balance_sub, balance_sub, ← h.filter_ofTurns b b₁, ← h.symm.filter_ofTurns b b₂,
    upTo_filter, upTo_filter, total_signed_filter _ fun t => s₁.hasName t.event]
  congr 3
  refine List.filter_congr fun t ht => ?_
  have ht := (List.mem_filter.1 ht).1
  exact (h.hasName_eq_not (mem_turns.1 (mem_of_mem_ofTurns ht)).2).symm

/-- Put together, two scenarios that stand apart fire what each of them fires alone, and the balance
moves by the sum of what theirs do. A scenario that does not look at the balance fires the same from
any opening. -/
theorem superposition (r : Registry) :
    (∀ {α : Type} [Amount α] {s s₁ s₂ : Scenario α} {first last : Date} (b b₁ b₂ : α),
      s.Superposes r s₁ s₂ → first.HasMonth → last.HasMonth → 0 ≤ first.year →
      ∃ run run₁ run₂, s.Yields r first last b run ∧ s₁.Yields r first last b₁ run₁ ∧
        s₂.Yields r first last b₂ run₂ ∧
        ∀ m ∈ Date.months first last, ∃ t ∈ run.cashflow.get? m.key,
          ∃ t₁ ∈ run₁.cashflow.get? m.key, ∃ t₂ ∈ run₂.cashflow.get? m.key,
            t.events.filter s₁.hasName = t₁.events ∧ t.events.filter s₂.hasName = t₂.events ∧
            Interleaving t₁.events t₂.events t.events) ∧
    (∀ {s s₁ s₂ : Scenario Rat} {first last : Date} (b b₁ b₂ : Rat),
      s.Superposes r s₁ s₂ → first.HasMonth → last.HasMonth → 0 ≤ first.year →
      ∀ run run₁ run₂, s.Yields r first last b run → s₁.Yields r first last b₁ run₁ →
        s₂.Yields r first last b₂ run₂ →
        ∀ m ∈ Date.months first last, ∃ v ∈ run.balances.get? m.key,
          ∃ v₁ ∈ run₁.balances.get? m.key, ∃ v₂ ∈ run₂.balances.get? m.key,
            v - b = (v₁ - b₁) + (v₂ - b₂)) ∧
    ∀ {α : Type} [Amount α] {s : Scenario α} {first last : Date} (b b' : α),
      r.wire s.events = .ok () → (∀ e ∈ s.events, e.IgnoresBalance) →
      first.HasMonth → last.HasMonth → 0 ≤ first.year →
      ∃ run run', s.Yields r first last b run ∧ s.Yields r first last b' run' ∧
        run.cashflow = run'.cashflow ∧ run.history = run'.history := by
  refine ⟨?_, ?_, ?_⟩
  · intro α _ s s₁ s₂ first last b b₁ b₂ h hf hl hy
    have hk : ((Date.months first last).map Date.key).Nodup := Date.nodup_keys
    refine ⟨_, _, _, yields_trace b h.wired hf hl hy, yields_trace b₁ h.wired₁ hf hl hy,
      yields_trace b₂ h.wired₂ hf hl hy, fun m hm => ?_⟩
    exact ⟨_, get?_cashflow b hk _ hm, _, get?_cashflow b₁ hk _ hm, _, get?_cashflow b₂ hk _ hm,
      h.interleaving_events_entry b b₁ b₂ _ m⟩
  · intro s s₁ s₂ first last b b₁ b₂ h hf hl hy run run₁ run₂ hrun hrun₁ hrun₂ m hm
    have hk : ((Date.months first last).map Date.key).Nodup := Date.nodup_keys
    obtain rfl := hrun.unique (yields_trace b h.wired hf hl hy)
    obtain rfl := hrun₁.unique (yields_trace b₁ h.wired₁ hf hl hy)
    obtain rfl := hrun₂.unique (yields_trace b₂ h.wired₂ hf hl hy)
    exact ⟨_, get?_balances b hk _ hm, _, get?_balances b₁ hk _ hm, _, get?_balances b₂ hk _ hm,
      h.balance_eq b b₁ b₂ _ m⟩
  · intro α _ s first last b b' hw hfree hf hl hy
    have hsame := ofTurns_of_ignoresBalance b b' (Date.months first last) hfree
    refine ⟨_, _, yields_trace b hw hf hl hy, yields_trace b' hw hf hl hy, ?_, ?_⟩
    · rw [hsame]
      rfl
    · rw [hsame]
      rfl

/-- A let flat: repairs once the rent is in, a reserve from any rent of fifty. -/
def landlord : Scenario Rat where
  name := "Landlord"
  events := [
    { name := "Repair", type := "expense", amount := 30, recurrence := "once",
      conditions := [.eventHappened "Rent"] },
    { name := "Rent", type := "income", amount := 60, recurrence := "monthly" },
    { name := "Reserve", type := "expense", amount := 5, recurrence := "monthly",
      conditions := [.incomeIsAbove "Rent" 50] }]

/-- A band that goes on tour every February and records after its first tour. -/
def band : Scenario Rat where
  name := "Band"
  events := [
    { name := "Tour", type := "income", amount := 80, recurrence := "yearly",
      conditions := [.dateInRange ⟨2025, 2, 1⟩ none] },
    { name := "Record", type := "expense", amount := 45, recurrence := "once",
      conditions := [.eventHappened "Tour"] }]

def landlordInBand : Scenario Rat where
  name := "Landlord in a band"
  events := [landlord.events[0], band.events[0], landlord.events[1], band.events[1],
    landlord.events[2]]

theorem superposes_landlordInBand : landlordInBand.Superposes .full landlord band where
  merged := .left (.right (.left (.right (.left .nil))))
  wired₁ := rfl
  wired₂ := rfl
  ignores₁ := by decide
  ignores₂ := by decide
  apart₁ := ⟨by decide, by decide⟩
  apart₂ := ⟨by decide, by decide⟩

theorem superposition_landlordInBand :
    ∃ run run₁ run₂ : Run Rat,
      landlordInBand.Yields .full ⟨2025, 1, 9⟩ ⟨2025, 2, 1⟩ 100 run ∧
      landlord.Yields .full ⟨2025, 1, 9⟩ ⟨2025, 2, 1⟩ 0 run₁ ∧
      band.Yields .full ⟨2025, 1, 9⟩ ⟨2025, 2, 1⟩ (-20) run₂ ∧
      (∀ m ∈ Date.months ⟨2025, 1, 9⟩ ⟨2025, 2, 1⟩, ∃ t ∈ run.cashflow.get? m.key,
        ∃ t₁ ∈ run₁.cashflow.get? m.key, t.events.filter landlord.hasName = t₁.events) ∧
      (∀ m ∈ Date.months ⟨2025, 1, 9⟩ ⟨2025, 2, 1⟩, ∃ v ∈ run.balances.get? m.key,
        ∃ v₁ ∈ run₁.balances.get? m.key, ∃ v₂ ∈ run₂.balances.get? m.key,
          v - 100 = (v₁ - 0) + (v₂ - -20)) ∧
      (∃ run', landlord.Yields .full ⟨2025, 1, 9⟩ ⟨2025, 2, 1⟩ 500 run' ∧
        run₁.cashflow = run'.cashflow) ∧
      run.cashflow.values.map (fun t => t.events.map Event.name) =
        [["Rent", "Repair", "Reserve"], ["Tour", "Rent", "Record", "Reserve"]] := by
  have h := superposes_landlordInBand
  have hf : Date.HasMonth ⟨2025, 1, 9⟩ := by decide
  have hl : Date.HasMonth ⟨2025, 2, 1⟩ := by decide
  obtain ⟨run, run₁, run₂, hrun, hrun₁, hrun₂, hlists⟩ :=
    (superposition .full).1 100 0 (-20) h hf hl (by decide)
  refine ⟨run, run₁, run₂, hrun, hrun₁, hrun₂, fun m hm => ?_, ?_, ?_, ?_⟩
  · obtain ⟨t, ht, t₁, ht₁, _, _, hfilter, -, -⟩ := hlists m hm
    exact ⟨t, ht, t₁, ht₁, hfilter⟩
  · exact (superposition .full).2.1 100 0 (-20) h hf hl (by decide) run run₁ run₂ hrun hrun₁ hrun₂
  · obtain ⟨run₀, run', hrun₀, hrun', hsame, -⟩ :=
      (superposition .full).2.2 0 500 h.wired₁ h.ignores₁ hf hl (by decide)
    exact ⟨run', hrun', hrun₁.unique hrun₀ ▸ hsame⟩
  · rw [hrun.unique (yields_trace 100 h.wired hf hl (by decide))]
    decide +kernel

end Cashflow

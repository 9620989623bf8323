import Mathlib.Data.List.Basic
import Cashflow.Proofs.Simulation.Turns

/-!
# What a turn looks at

Besides the calendar a turn looks at the firings of its own name, its conditions at those of the
names they wait for (`Condition.awaited?`) and, if one is about net worth, at the balance. Traces
that agree in these agree on whether it fires (`AgreeOn.fires_iff`).

Later firings of the same month shut a turn out unless one of them is awaited: gates only close
within a month, and a condition goes on to see the first income of its name
(`fires_of_fires_append`).
-/

namespace Cashflow

/-- The name whose firings a condition looks at. -/
def Condition.awaited? {α : Type} : Condition α → Option String
  | .eventHappened name | .incomeIsAbove name _ => some name
  | .dateIs _ | .dateInRange _ _ | .networthIsAbove _ _ => none

theorem Event.isBalanceGated_of_awaited? {α : Type} {e : Event α} {c : Condition α} {name : String}
    (hc : c ∈ e.conditions) (h : name ∈ c.awaited?) : e.isBalanceGated = true := by
  refine List.any_eq_true.2 ⟨c, hc, ?_⟩
  cases c <;> first | rfl | cases h

namespace Trace

/-! ## Firings by name -/

section Parts
variable {α : Type}

theorem named_filter_of_forall {H : Trace α} {p : Turn α → Bool} {name : String}
    (h : ∀ u ∈ H, u.event.name = name → p u = true) : named (H.filter p) name = H.named name := by
  rw [named, named, List.filter_comm, List.filter_eq_self]
  intro u hu
  obtain ⟨hu, hname⟩ := List.mem_filter.1 hu
  exact h u hu (of_decide_eq_true hname)

theorem during_filter (H : Trace α) (p : Turn α → Bool) (month : Date) :
    during (H.filter p) month = (H.during month).filter p :=
  List.filter_comm ..

theorem upTo_filter (H : Trace α) (p : Turn α → Bool) (month : Date) :
    upTo (H.filter p) month = (H.upTo month).filter p :=
  List.filter_comm ..

/-- The first income of a name is the first income among the firings of the name. -/
theorem find?_income_eq (H : Trace α) (month : Date) (name : String) :
    (H.during month).find? (fun u => u.event.name = name && u.event.isIncome) =
      ((H.named name).during month).find? fun u => u.event.isIncome := by
  rw [named, during_filter, List.find?_filter]
  congr 1
  funext u
  simp

theorem mayFire_iff_of_named_eq {H K : Trace α} {t : Turn α}
    (h : H.named t.event.name = K.named t.event.name) : H.MayFire t ↔ K.MayFire t := by
  rw [MayFire, MayFire, ← named_eq_nil_iff, ← named_eq_nil_iff, h]

end Parts

variable {α : Type} [Amount α] {opening opening' : α} {H K : Trace α}

theorem holds_iff_of_named_eq {month : Date} {c : Condition α}
    (hawaited : ∀ name ∈ c.awaited?, H.named name = K.named name)
    (hbalance : c.kind = .networthIsAbove → H.balance opening = K.balance opening') :
    Holds opening H month c ↔ Holds opening' K month c := by
  cases c with
  | dateIs d => exact Iff.rfl
  | dateInRange first last => exact Iff.rfl
  | networthIsAbove note x => rw [Holds, Holds, hbalance rfl]
  | eventHappened name =>
    have hnil : H.named name = [] ↔ ∀ u ∈ H, u.event.name ≠ name := named_eq_nil_iff
    rw [hawaited name rfl, named_eq_nil_iff] at hnil
    rw [Holds, Holds, ← not_iff_not]
    push Not
    exact hnil.symm
  | incomeIsAbove name x =>
    rw [Holds, Holds, find?_income_eq, find?_income_eq, hawaited name rfl]

/-- The traces have all that the event looks at in common. -/
structure AgreeOn (opening opening' : α) (e : Event α) (H K : Trace α) : Prop where
  own : H.named e.name = K.named e.name
  awaited : ∀ c ∈ e.conditions, ∀ name ∈ c.awaited?, H.named name = K.named name
  balance : ¬ e.IgnoresBalance → H.balance opening = K.balance opening'

theorem AgreeOn.fires_iff {t : Turn α} (h : AgreeOn opening opening' t.event H K) :
    Fires opening H t ↔ Fires opening' K t := by
  rw [Fires, Fires, mayFire_iff_of_named_eq h.own]
  refine and_congr_right fun _ => forall₂_congr fun c hc => ?_
  exact holds_iff_of_named_eq (h.awaited c hc) fun hkind => h.balance fun hfree => hfree c hc hkind

/-- Of the firings so far, those of its own name are all that counts for an event without a balance
condition. -/
theorem fires_iff_of_named_eq {t : Turn α} (ht : t.event.isBalanceGated = false)
    (h : H.named t.event.name = K.named t.event.name) :
    Fires opening H t ↔ Fires opening' K t := by
  refine AgreeOn.fires_iff ⟨h, fun c hc name hname => ?_, fun hsees => ?_⟩
  · exact absurd (Event.isBalanceGated_of_awaited? hc hname) (by simp [ht])
  · exact absurd (Event.ignoresBalance_of_not_gated ht) hsees

/-! ## Later firings of a month -/

omit [Amount α] in
/-- A gate that is open after more firings of the month was open before them. -/
theorem mayFire_of_mayFire_append {L : Trace α} {t : Turn α} (hmonth : ∀ u ∈ L, u.month = t.month)
    (h : MayFire (H ++ L) t) : H.MayFire t := by
  rcases h with hr | ⟨hr, hnone⟩ | ⟨hr, range, hrange, hanchor, hlast⟩
  · exact Or.inl hr
  · exact Or.inr (Or.inl ⟨hr, fun u hu => hnone u (List.mem_append_left L hu)⟩)
  · have hL : L.named t.event.name = [] := by
      -- A firing of the name in this month would be in the year of the turn.
      by_contra hne
      obtain ⟨z, hz⟩ := Option.ne_none_iff_exists'.1 (mt List.getLast?_eq_none_iff.1 hne)
      have hmem : z ∈ L := (List.mem_filter.1 (List.mem_of_getLast? hz)).1
      refine hlast z ?_ (congrArg Date.year (hmonth z hmem))
      rw [named_append, List.getLast?_append, hz]
      rfl
    rw [named_append, hL, List.append_nil] at hlast
    exact Or.inr (Or.inr ⟨hr, range, hrange, hanchor, hlast⟩)

/-- What fires after more firings of the month would have fired before them, if it waits for none of
them and does not look at the balance. -/
theorem fires_of_fires_append {L : Trace α} {t : Turn α} (hfree : t.event.IgnoresBalance)
    (hmonth : ∀ u ∈ L, u.month = t.month)
    (hawaited : ∀ c ∈ t.event.conditions, ∀ name ∈ c.awaited?, ∀ u ∈ L, u.event.name ≠ name)
    (h : Fires opening (H ++ L) t) : Fires opening H t := by
  refine ⟨mayFire_of_mayFire_append hmonth h.1, fun c hc => ?_⟩
  refine (holds_iff_of_named_eq (fun name hname => ?_) fun hkind => ?_).1 (h.2 c hc)
  · rw [named_append, named_eq_nil_iff.2 (hawaited c hc name hname), List.append_nil]
  · exact absurd hkind (hfree c hc)

end Trace

end Cashflow

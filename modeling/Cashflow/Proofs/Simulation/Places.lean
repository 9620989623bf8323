import Cashflow.Proofs.Calendar.Window
import Cashflow.Proofs.Except
import Cashflow.Simulation.Run

/-!
# The places that fire

Events of a scenario may have all in common but their place in it. Which places fire in a run is
read off the walk through its months: `Scenario.placesFired` lists them with their months, in the
order of the firings.

The ledger lists the events in these places and no others (`listing_eq_places`).
-/

namespace Cashflow

/-- An event and its place in the scenario. -/
abbrev Placed (α : Type) := Event α × Nat

/-- The two passes of a month, with places. -/
def placedPasses {α : Type} (events : List (Event α)) : List (Placed α) × List (Placed α) :=
  (events.zipIdx.filter fun p => !p.1.isBalanceGated,
    events.zipIdx.filter fun p => p.1.isBalanceGated)

variable {α : Type} [Amount α]

namespace OpenMonth

/-- The places that fire in a pass, in order, up to a fault. -/
def placesOfPass (r : Registry) (apply : OpenMonth α → Event α → OpenMonth α) :
    List (Placed α) → OpenMonth α → List Nat
  | [], _ => []
  | (e, i) :: es, o =>
    match e.shouldFire r o.moment with
    | .error _ => []
    | .ok true => i :: placesOfPass r apply es (apply o e)
    | .ok false => placesOfPass r apply es o

/-- The places that fire in both passes. -/
def places (r : Registry) (first second : List (Placed α)) (o : OpenMonth α) : List Nat :=
  placesOfPass r fire first o ++
    match o.firstPass r (first.map Prod.fst) with
    | .ok o => placesOfPass r (fun o e => (o.fire e).refresh) second o.refresh
    | .error _ => []

end OpenMonth

/-- The places that fire in some months in turn, each with its month. -/
def Books.placesFired (r : Registry) (events : List (Event α)) :
    List Date → Books α → List (Date × Nat)
  | [], _ => []
  | m :: months, b =>
    ((b.openMonth m).places r (placedPasses events).1 (placedPasses events).2).map (m, ·) ++
      match b.evaluateMonth r (passes events).1 (passes events).2 m with
      | .ok b => placesFired r events months b
      | .error _ => []

/-- The places that fire in a run, each with its month, in order. -/
def Scenario.placesFired (r : Registry) (s : Scenario α) (first last : Date) (opening : α) :
    List (Date × Nat) :=
  match r.wire s.events with
  | .ok () => Books.placesFired r s.events (Date.window first last) { balance := opening }
  | .error _ => []

/-! ## Passes with places -/

section Parts
variable {α : Type} (events : List (Event α))

theorem map_fst_placedPasses :
    (placedPasses events).1.map Prod.fst = (passes events).1 ∧
      (placedPasses events).2.map Prod.fst = (passes events).2 := by
  have h : ∀ q : Event α → Bool,
      (events.zipIdx.filter fun p => q p.1).map Prod.fst = events.filter q := by
    intro q
    conv_rhs => rw [← List.zipIdx_map_fst 0 events]
    exact List.filter_map.symm
  exact ⟨h fun e => !e.isBalanceGated, h Event.isBalanceGated⟩

theorem getElem?_of_mem_placedPasses {p : Placed α}
    (h : p ∈ (placedPasses events).1 ∨ p ∈ (placedPasses events).2) :
    events[p.2]? = some p.1 := by
  have hmem : p ∈ events.zipIdx := h.elim List.mem_of_mem_filter List.mem_of_mem_filter
  exact List.mem_zipIdx_iff_getElem?.1 hmem

end Parts

/-! ## Runs that return -/

variable {r : Registry} {s : Scenario α} {first last : Date} {opening : α}

theorem Books.evaluateMonth_eq_ok {events : List (Event α)} {b b' : Books α} {m : Date}
    (h : b.evaluateMonth r (passes events).1 (passes events).2 m = .ok b') :
    ∃ o o', (b.openMonth m).firstPass r (passes events).1 = .ok o ∧
      o.refresh.secondPass r (passes events).2 = .ok o' ∧ b' = b.close o' := by
  unfold Books.evaluateMonth at h
  split at h
  · rename_i o' ho'
    obtain ⟨o, ho, ho'⟩ := bind_eq_ok.1 ho'
    exact ⟨o, o', ho, ho', (Except.ok.inj h).symm⟩
  · cases h

/-- A run returns when its events are wired, its months are written and each of them ends. -/
theorem Scenario.writtenRun_eq_ok_iff {run : Run α} :
    s.writtenRun r first last opening = .ok run ↔
      r.wire s.events = .ok () ∧ Date.reachesUnwritten first last = false ∧
        ∃ b, ({ balance := opening } : Books α).evaluateMonths r s.events
            (Date.window first last) = .ok b ∧
          run = .ofBooks s.name opening b := by
  unfold writtenRun writtenBooks books wiredBooks
  simp only [Books.evaluateWindow_eq]
  cases r.wire s.events with
  | error f => cases Date.reachesUnwritten first last <;> simp [bind, Except.bind]
  | ok u =>
    cases Date.reachesUnwritten first last with
    | true =>
      simp only [if_true]
      generalize Books.evaluateMonths r s.events _ _ = y
      cases y <;> simp [bind, Except.bind]
    | false =>
      simp only [Bool.false_eq_true, if_false]
      generalize Books.evaluateMonths r s.events _ _ = y
      cases y <;> simp [eq_comm]

/-! ## What the ledger lists -/

/-- The events in the given places, each with the key of its month. -/
def eventsAt {α : Type} (events : List (Event α)) (places : List (Date × Nat)) :
    List (String × Event α) :=
  places.filterMap fun p => (events[p.2]?).map fun e => (p.1.key, e)

/-- The events that a ledger lists, each with its month, in order. -/
def listing (ledger : Keyed String (Entry α)) : List (String × Event α) :=
  ledger.entries.flatMap fun p => p.2.events.map fun e => (p.1, e)

namespace OpenMonth

theorem listed_pass (apply : OpenMonth α → Event α → OpenMonth α)
    (happly : ∀ o e, (apply o e).month = o.month ∧
      (apply o e).entry.events = o.entry.events ++ [e])
    {events : List (Event α)} {es : List (Placed α)} (hes : ∀ p ∈ es, events[p.2]? = some p.1)
    {o o' : OpenMonth α} (h : pass r apply (es.map Prod.fst) o = .ok o') :
    o'.month = o.month ∧
      o'.entry.events =
        o.entry.events ++ (placesOfPass r apply es o).filterMap fun i => events[i]? := by
  induction es generalizing o with
  | nil =>
    cases h
    exact ⟨rfl, (List.append_nil _).symm⟩
  | cons p es ih =>
    obtain ⟨e, i⟩ := p
    obtain ⟨hi, hes⟩ := List.forall_mem_cons.1 hes
    rw [List.map_cons, pass] at h
    unfold placesOfPass
    split at h
    · cases h
    · rename_i hfires
      obtain ⟨hm, hl⟩ := ih hes h
      rw [hfires, hm, hl, (happly o e).1, (happly o e).2, List.filterMap_cons_some hi,
        List.append_assoc]
      exact ⟨rfl, rfl⟩
    · rename_i hfires
      rw [hfires]
      exact ih hes h

/-- A month that ends lists the events in the places that fire in it. -/
theorem listed_evaluate {events : List (Event α)} {o o₁ o' : OpenMonth α}
    (h₁ : o.firstPass r (passes events).1 = .ok o₁)
    (h' : o₁.refresh.secondPass r (passes events).2 = .ok o') :
    o'.month = o.month ∧
      o'.entry.events = o.entry.events ++
        (o.places r (placedPasses events).1 (placedPasses events).2).filterMap
          fun i => events[i]? := by
  obtain ⟨hfirst, hsecond⟩ := map_fst_placedPasses events
  rw [← hfirst] at h₁
  rw [← hsecond] at h'
  obtain ⟨hm₁, hl₁⟩ := listed_pass fire (fun o e => ⟨rfl, rfl⟩)
    (fun p hp => getElem?_of_mem_placedPasses events (Or.inl hp)) h₁
  obtain ⟨hm', hl'⟩ := listed_pass (fun o e => (o.fire e).refresh) (fun o e => ⟨rfl, rfl⟩)
    (fun p hp => getElem?_of_mem_placedPasses events (Or.inr hp)) h'
  refine ⟨hm'.trans hm₁, ?_⟩
  have hentry : o₁.refresh.entry.events = o₁.entry.events := rfl
  rw [hl', hentry, hl₁, List.append_assoc, ← List.filterMap_append, places, h₁]

end OpenMonth

theorem Books.listing_evaluateMonths {events : List (Event α)} {months : List Date}
    (hn : (months.map Date.key).Nodup) {b b' : Books α}
    (hfresh : ∀ m ∈ months, m.key ∉ b.cashflow.keys)
    (h : b.evaluateMonths r events months = .ok b') :
    listing b'.cashflow =
      listing b.cashflow ++ eventsAt events (Books.placesFired r events months b) := by
  induction months generalizing b with
  | nil =>
    cases h
    exact (List.append_nil _).symm
  | cons m months ih =>
    obtain ⟨b₁, hb₁, h⟩ := bind_eq_ok.1 h
    obtain ⟨o₁, o', ho₁, ho', rfl⟩ := evaluateMonth_eq_ok hb₁
    obtain ⟨hm, hl⟩ := OpenMonth.listed_evaluate ho₁ ho'
    rw [List.map_cons, List.nodup_cons] at hn
    obtain ⟨hnew, hfresh⟩ := List.forall_mem_cons.1 hfresh
    have hkey : o'.month.key = m.key := congrArg Date.key hm
    have hput : (b.cashflow.put m.key o'.entry).entries =
        b.cashflow.entries ++ [(m.key, o'.entry)] :=
      Keyed.entries_put_of_not_mem b.cashflow m.key o'.entry hnew
    have hfresh' : ∀ m' ∈ months, m'.key ∉ (b.close o').cashflow.keys := by
      intro m' hm' hmem
      change m'.key ∈ (b.cashflow.put o'.month.key o'.entry).keys at hmem
      rw [hkey, Keyed.keys_put, if_neg hnew, List.mem_append, List.mem_singleton] at hmem
      rcases hmem with hmem | hmem
      · exact hfresh m' hm' hmem
      · exact hn.1 (hmem ▸ List.mem_map_of_mem hm')
    have hclose : listing (b.close o').cashflow =
        listing b.cashflow ++ o'.entry.events.map fun e => (m.key, e) := by
      show (b.cashflow.put o'.month.key o'.entry).entries.flatMap _ = _
      rw [hkey, hput, List.flatMap_append, List.flatMap_singleton]
      rfl
    rw [ih hn.2 hfresh' h, hclose, hl, List.append_assoc, placesFired, hb₁, eventsAt, eventsAt,
      List.filterMap_append, List.filterMap_map]
    congr 2
    show (List.filterMap _ _).map _ = _
    rw [List.map_filterMap]
    rfl

/-- The ledger of a run that returns lists the events in the places that fire, month by month. -/
theorem listing_eq_places {run : Run α} (hf : first.HasMonth) (hl : last.HasMonth)
    (h : s.writtenRun r first last opening = .ok run) :
    listing run.cashflow = eventsAt s.events (s.placesFired r first last opening) := by
  obtain ⟨hw, -, b, hb, rfl⟩ := Scenario.writtenRun_eq_ok_iff.1 h
  have hn : ((Date.window first last).map Date.key).Nodup := by
    rw [Date.window_eq_months hf hl]
    exact Date.nodup_keys
  rw [Scenario.placesFired, hw]
  exact Books.listing_evaluateMonths hn (fun m _ => List.not_mem_nil) hb

end Cashflow

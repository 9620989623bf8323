import Cashflow.Proofs.Simulation.Outcome
import Cashflow.Proofs.Simulation.Places

/-!
# Events that never fire

To ask whether an event fires changes nothing: the gates and conditions only look at the month, and
what they say goes nowhere unless the event fires. So the places that fire in no month of a run can
be left out of the scenario, and the run stays the same (`writtenRun_without`): its ledger, its
balances and its history, whatever the other events are, and whatever names they have.

A pass goes on from an event that does not fire as if it were not there (`pass_filter_of_idle`); so
do a month (`evaluateMonth_of_idle`) and the months of a run (`evaluateMonths_of_idle`).
-/

namespace Cashflow

section Parts
variable {α : Type}

/-- The events that are in none of the places. -/
def eventsBut (events : List (Event α)) (places : List Nat) : List (Event α) :=
  (events.zipIdx.filter fun p => p.2 ∉ places).map Prod.fst

/-- The scenario without the events in some places. -/
def Scenario.without (s : Scenario α) (places : List Nat) : Scenario α :=
  { s with events := eventsBut s.events places }

theorem mem_of_mem_eventsBut {events : List (Event α)} {places : List Nat} {e : Event α}
    (h : e ∈ eventsBut events places) : e ∈ events := by
  obtain ⟨p, hp, rfl⟩ := List.mem_map.1 h
  exact List.mem_of_getElem? (List.mem_zipIdx_iff_getElem?.1 (List.mem_of_mem_filter hp))

theorem passes_eventsBut (events : List (Event α)) (places : List Nat) :
    (passes (eventsBut events places)).1 =
        ((placedPasses events).1.filter fun p => p.2 ∉ places).map Prod.fst ∧
      (passes (eventsBut events places)).2 =
        ((placedPasses events).2.filter fun p => p.2 ∉ places).map Prod.fst := by
  simp only [passes, placedPasses, eventsBut, List.filter_map]
  constructor
  · rw [List.filter_comm]
    rfl
  · rw [List.filter_comm]
    rfl

end Parts

variable {α : Type} [Amount α] {r : Registry} {places : List Nat}

namespace OpenMonth

/-- What does not fire in a pass may as well not be in it. -/
theorem pass_filter_of_idle {apply : OpenMonth α → Event α → OpenMonth α} {es : List (Placed α)}
    {o o' : OpenMonth α} (h : pass r apply (es.map Prod.fst) o = .ok o')
    (hidle : ∀ i ∈ placesOfPass r apply es o, i ∉ places) :
    pass r apply ((es.filter fun p => p.2 ∉ places).map Prod.fst) o = .ok o' := by
  induction es generalizing o with
  | nil => exact h
  | cons p es ih =>
    obtain ⟨e, i⟩ := p
    rw [List.map_cons, pass] at h
    unfold placesOfPass at hidle
    cases hfires : e.shouldFire r o.moment with
    | error f =>
      rw [hfires] at h
      cases h
    | ok fires =>
      rw [hfires] at h hidle
      cases fires with
      | true =>
        obtain ⟨hi, hidle⟩ := List.forall_mem_cons.1 hidle
        rw [List.filter_cons_of_pos (by simpa using hi), List.map_cons, pass, hfires]
        exact ih h hidle
      | false =>
        -- The event may be left out or not: it is passed over all the same.
        by_cases hi : i ∈ places
        · rw [List.filter_cons_of_neg (by simpa using hi)]
          exact ih h hidle
        · rw [List.filter_cons_of_pos (by simpa using hi), List.map_cons, pass, hfires]
          exact ih h hidle

end OpenMonth

namespace Books
variable {events : List (Event α)}

theorem evaluateMonth_of_idle {b b' : Books α} {m : Date}
    (h : b.evaluateMonth r (passes events).1 (passes events).2 m = .ok b')
    (hidle : ∀ i ∈ (b.openMonth m).places r (placedPasses events).1 (placedPasses events).2,
      i ∉ places) :
    b.evaluateMonth r (passes (eventsBut events places)).1 (passes (eventsBut events places)).2 m =
      .ok b' := by
  obtain ⟨o, o', ho, ho', rfl⟩ := evaluateMonth_eq_ok h
  obtain ⟨hfirst, hsecond⟩ := map_fst_placedPasses events
  obtain ⟨hkept, hkept'⟩ := passes_eventsBut events places
  rw [← hfirst] at ho
  rw [← hsecond] at ho'
  rw [OpenMonth.places, ho, List.forall_mem_append] at hidle
  have hone : (b.openMonth m).firstPass r (passes (eventsBut events places)).1 = .ok o := by
    rw [hkept]
    exact OpenMonth.pass_filter_of_idle ho hidle.1
  have htwo : o.refresh.secondPass r (passes (eventsBut events places)).2 = .ok o' := by
    rw [hkept']
    exact OpenMonth.pass_filter_of_idle ho' hidle.2
  rw [evaluateMonth, OpenMonth.evaluate, hone, ok_bind, htwo]

theorem evaluateMonths_of_idle {months : List Date} {b b' : Books α}
    (h : b.evaluateMonths r events months = .ok b')
    (hidle : ∀ p ∈ Books.placesFired r events months b, p.2 ∉ places) :
    b.evaluateMonths r (eventsBut events places) months = .ok b' := by
  induction months generalizing b with
  | nil => exact h
  | cons m months ih =>
    obtain ⟨b₁, hb₁, h⟩ := bind_eq_ok.1 h
    rw [placesFired, hb₁, List.forall_mem_append, List.forall_mem_map] at hidle
    have hmonth := evaluateMonth_of_idle hb₁ hidle.1
    unfold evaluateMonths
    rw [List.foldlM_cons, hmonth]
    exact ih h hidle.2

end Books

/-- A run that returns is the run of the scenario without any places that do not fire in it. -/
theorem writtenRun_without (r : Registry) (s : Scenario α) (first last : Date) (opening : α)
    {run : Run α} (places : List Nat) (h : s.writtenRun r first last opening = .ok run)
    (hidle : ∀ p ∈ s.placesFired r first last opening, p.2 ∉ places) :
    (s.without places).writtenRun r first last opening = .ok run := by
  obtain ⟨hw, hwritten, b, hb, rfl⟩ := Scenario.writtenRun_eq_ok_iff.1 h
  rw [Scenario.placesFired, hw] at hidle
  refine Scenario.writtenRun_eq_ok_iff.2 ⟨?_, hwritten, b, ?_, rfl⟩
  · rw [Registry.wire_eq_ok_iff] at hw ⊢
    exact fun e he => hw e (mem_of_mem_eventsBut he)
  · exact Books.evaluateMonths_of_idle hb hidle

/-- Two cars, one like the other, of which the second is never bought, and a gift that comes round
every year but has no month. -/
def twinCars : Scenario Rat where
  name := "Twin cars"
  events := [
    { name := "Car", type := "expense", amount := 300, recurrence := "once",
      conditions := [.networthIsAbove "Salary" 400] },
    { name := "Car", type := "expense", amount := 300, recurrence := "once",
      conditions := [.networthIsAbove "Salary" 400] },
    { name := "Salary", type := "income", amount := 250, recurrence := "monthly" },
    { name := "Salary", type := "expense", amount := 20, recurrence := "yearly" }]

theorem placesFired_twinCars :
    twinCars.placesFired .full ⟨2025, 1, 15⟩ ⟨2025, 3, 2⟩ 150 =
      [(⟨2025, 1, 1⟩, 2), (⟨2025, 2, 1⟩, 2), (⟨2025, 2, 1⟩, 0), (⟨2025, 3, 1⟩, 2)] := by
  rw [Scenario.placesFired, Date.window_eq_months (by decide) (by decide)]
  decide +kernel

theorem writtenRun_without_twinCars :
    (∀ p ∈ twinCars.placesFired .full ⟨2025, 1, 15⟩ ⟨2025, 3, 2⟩ 150, p.2 ∉ [1, 3]) ∧
    ∃ run, twinCars.writtenRun .full ⟨2025, 1, 15⟩ ⟨2025, 3, 2⟩ 150 = .ok run ∧
      (twinCars.without [1, 3]).writtenRun .full ⟨2025, 1, 15⟩ ⟨2025, 3, 2⟩ 150 = .ok run ∧
      (twinCars.without [1, 3]).names = ["Car", "Salary"] ∧
      run.balances.values = [400, 350, 600] := by
  have hrun := writtenRun_of_nonneg (r := .full) (s := twinCars) 150 rfl
    (show Date.HasMonth ⟨2025, 1, 15⟩ by decide) (show Date.HasMonth ⟨2025, 3, 2⟩ by decide)
    (by decide) (by decide +kernel)
  have hidle : ∀ p ∈ twinCars.placesFired .full ⟨2025, 1, 15⟩ ⟨2025, 3, 2⟩ 150, p.2 ∉ [1, 3] := by
    rw [placesFired_twinCars]
    decide
  exact ⟨hidle, _, hrun, writtenRun_without .full twinCars _ _ 150 [1, 3] hrun hidle, by decide,
    by decide +kernel⟩

end Cashflow

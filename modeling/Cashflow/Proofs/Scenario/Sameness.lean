import Cashflow.Scenario.Event

/-!
# Scenarios that are the same

Two scenarios are compared number by number, and annotations do not count (`Scenario.sameBy`).

* `bare` : without annotations; scenarios that are alike when bare count as the same
  (`Scenario.sameBy_of_bare_eq`) as soon as each of the numbers in them is equal to itself, which
  among doubles leaves out the undefined one;
* `numbers` : the amounts, with the thresholds of the conditions.
-/

namespace Cashflow
variable {α : Type}

def Condition.thresholds : Condition α → List α
  | .networthIsAbove _ x | .incomeIsAbove _ x => [x]
  | .dateIs _ | .dateInRange _ _ | .eventHappened _ => []

namespace Event

def numbers (e : Event α) : List α := e.amount :: e.conditions.flatMap Condition.thresholds

def bare (e : Event α) : Event α := { e with metadata := none }

end Event

namespace Scenario

def numbers (s : Scenario α) : List α := s.events.flatMap Event.numbers

def bare (s : Scenario α) : Scenario α := { s with events := s.events.map Event.bare }

end Scenario

section Sameness
variable {eq : α → α → Bool}

theorem Condition.sameBy_self {c : Condition α} (h : ∀ x ∈ c.thresholds, eq x x = true) :
    c.sameBy eq c = true := by
  cases c <;> simp_all [Condition.sameBy, Condition.thresholds]

theorem all_zip_self {β : Type} {p : β × β → Bool} {l : List β} (h : ∀ b ∈ l, p (b, b) = true) :
    (l.zip l).all p = true := by
  induction l with
  | nil => rfl
  | cons b l ih =>
    obtain ⟨hb, hl⟩ := List.forall_mem_cons.1 h
    rw [List.zip_cons_cons, List.all_cons, hb, ih hl, Bool.true_and]

theorem Event.sameBy_self {e : Event α} (h : ∀ x ∈ e.numbers, eq x x = true) :
    e.sameBy eq e = true := by
  obtain ⟨hamount, hconditions⟩ := List.forall_mem_cons.1 h
  have hall : (e.conditions.zip e.conditions).all (fun c => c.1.sameBy eq c.2) = true :=
    all_zip_self fun c hc => Condition.sameBy_self fun x hx =>
      hconditions x (List.mem_flatMap.2 ⟨c, hc, hx⟩)
  simp [Event.sameBy, hamount, hall]

theorem Scenario.sameBy_self {s : Scenario α} (h : ∀ x ∈ s.numbers, eq x x = true) :
    s.sameBy eq s = true := by
  have hall : (s.events.zip s.events).all (fun e => e.1.sameBy eq e.2) = true :=
    all_zip_self fun e he => Event.sameBy_self fun x hx => h x (List.mem_flatMap.2 ⟨e, he, hx⟩)
  simp [Scenario.sameBy, hall]

theorem Scenario.sameBy_bare (s t : Scenario α) : s.bare.sameBy eq t.bare = s.sameBy eq t := by
  simp only [Scenario.sameBy, Scenario.bare, List.length_map, List.zip_map, List.all_map]
  rfl

theorem Scenario.numbers_bare (s : Scenario α) : s.bare.numbers = s.numbers := by
  simp only [Scenario.numbers, Scenario.bare, List.flatMap_map]
  rfl

theorem Scenario.sameBy_of_bare_eq {s t : Scenario α} (hst : s.bare = t.bare)
    (h : ∀ x ∈ t.numbers, eq x x = true) : s.sameBy eq t = true := by
  rw [← sameBy_bare, hst]
  exact sameBy_self (by rwa [numbers_bare])

end Sameness

end Cashflow

import Cashflow.Review.Lint
import Cashflow.Proofs.Simulation.Dependence

/-!
# Findings, event by event

The linter walks over the events once and carries what it has met so far. What it warns of at an
event depends on the place of the event alone (`Lint.warningsAt`), and its report lists the warnings
place by place (`warnings_lint`).

The findings about references say what they seem to: no event has the name
(`unknownReference_mem_iff`), some event has it but no income (`notAnIncome_mem_iff`), or an event
that is declared further on and evaluated in the second pass has it (`forwardReference_mem_iff`).
-/

namespace Cashflow

namespace Lint
variable {α : Type} {events : List (Event α)} {i : Nat} {e : Event α}

/-- What is warned of at the event `e` in the place `i`, after the events before it. -/
def warningsAt (events : List (Event α)) (i : Nat) (e : Event α) : List (Finding α) :=
  warningsOf events ((events.take i).map Event.name)
    ((events.take (i + 1)).countP Event.isBalanceGated) e

/-! ## The walk -/

theorem warningsOf_congr {reported reported' : List String}
    (h : ∀ name, name ∈ reported ↔ name ∈ reported') (before : Nat) (e : Event α) :
    warningsOf events reported before e = warningsOf events reported' before e := by
  simp only [warningsOf, List.contains_iff_mem, h]

/-- The rest of the walk, from the event after `before` on. -/
theorem warningsFrom_eq {before rest : List (Event α)} {reported : List String}
    (hevents : events = before ++ rest)
    (hreported : ∀ name, name ∈ reported ↔ name ∈ before.map Event.name) :
    warningsFrom events reported (before.countP Event.isBalanceGated) rest =
      (rest.zipIdx before.length).flatMap fun p =>
        (warningsAt events p.2 p.1).map (Issue.mk p.1.name) := by
  induction rest generalizing before reported with
  | nil => rfl
  | cons e rest ih =>
    have hcount : (if e.isBalanceGated then before.countP Event.isBalanceGated + 1
        else before.countP Event.isBalanceGated) =
          (before ++ [e]).countP Event.isBalanceGated := by
      rw [List.countP_append, List.countP_singleton]
      split <;> rfl
    have htake : events.take before.length = before := by rw [hevents, List.take_left]
    have htake' : events.take (before.length + 1) = before ++ [e] := by
      rw [hevents, List.take_length_add_append, List.take_succ_cons, List.take_zero]
    have hevents' : events = (before ++ [e]) ++ rest := by
      rw [hevents, List.append_assoc, List.singleton_append]
    have hreported' : ∀ name,
        name ∈ e.name :: reported ↔ name ∈ (before ++ [e]).map Event.name := by
      intro name
      simp [hreported, or_comm]
    have hnext := ih hevents' hreported'
    rw [List.length_append, List.length_singleton] at hnext
    rw [warningsFrom, hcount, issues, List.zipIdx_cons, List.flatMap_cons, hnext, warningsAt, htake,
      htake', warningsOf_congr hreported]

end Lint

open Lint

theorem warnings_lint {α : Type} [Amount α] (s : Scenario α) :
    s.lint.warnings = s.events.zipIdx.flatMap fun p =>
      (warningsAt s.events p.2 p.1).map (Issue.mk p.1.name) :=
  warningsFrom_eq (List.nil_append s.events).symm fun _ => Iff.rfl

namespace Lint
variable {α : Type} {events : List (Event α)} {i : Nat} {e : Event α}

/-! ## Findings about references -/

/-- A name that no event has is reported as such, and any other by what its events are. -/
theorem mem_referenceFindings {before : Nat} {c : Condition α} {name : String} {f : Finding α} :
    f ∈ referenceFindings events before c name ↔
      (f = .unknownReference c.kind name ∧ name ≠ "" ∧ ∀ x ∈ events, x.name ≠ name) ∨
      ((name ≠ "" → ∃ x ∈ events, x.name = name) ∧
        ((f = .notAnIncome name ∧ name ≠ "" ∧ isIncomeCondition c = true ∧
            ∀ x ∈ events, x.isIncome = true → x.name ≠ name) ∨
          (f = .forwardReference name ∧ ¬ isNetworthCondition c = true ∧
            isLater events before name = true))) := by
  have hany : events.any (fun x => x.name = name) = true ↔ ∃ x ∈ events, x.name = name := by simp
  have hincome : ¬ events.any (fun x => x.isIncome && x.name = name) = true ↔
      ∀ x ∈ events, x.isIncome = true → x.name ≠ name := by simp
  have hone : ∀ (p : Prop) [Decidable p] (g : Finding α), f ∈ (if p then [g] else []) ↔ f = g ∧ p := by
    intro p _ g
    split <;> simp_all
  unfold referenceFindings
  split
  · rename_i hunknown
    rw [hany] at hunknown
    obtain ⟨hne, hnone⟩ := hunknown
    have hnone' : ∀ x ∈ events, x.name ≠ name := fun x hx hname => hnone ⟨x, hx, hname⟩
    rw [List.mem_singleton]
    exact ⟨fun h => Or.inl ⟨h, hne, hnone'⟩, fun h => h.elim And.left fun h => absurd (h.1 hne) hnone⟩
  · rename_i hknown
    rw [hany] at hknown
    have hknown' : name ≠ "" → ∃ x ∈ events, x.name = name := fun hne =>
      Decidable.not_not.1 fun hnone => hknown ⟨hne, hnone⟩
    rw [List.mem_append, hone, hone, hincome]
    refine ⟨fun h => Or.inr ⟨hknown', h⟩, fun h => h.elim (fun h => ?_) And.right⟩
    obtain ⟨x, hx, hname⟩ := hknown' h.2.1
    exact absurd hname (h.2.2 x hx)

theorem mem_warningsAt_iff {f : Finding α} (hcount : ∀ n, f ≠ .duplicateName n)
    (hdate : f ≠ .onceWithoutDate) :
    f ∈ warningsAt events i e ↔ ∃ c ∈ e.conditions, ∃ name ∈ reference? c,
      f ∈ referenceFindings events ((events.take (i + 1)).countP Event.isBalanceGated) c name := by
  have hconditions : ∀ c before, f ∈ conditionFindings events before c ↔
      ∃ name ∈ reference? c, f ∈ referenceFindings events before c name := by
    intro c before
    unfold conditionFindings
    cases reference? c with
    | none => simp
    | some name => simp
  simp only [warningsAt, warningsOf, List.mem_append, List.mem_flatMap, hconditions]
  constructor
  · rintro ((h | h) | h)
    · split at h
      · exact absurd (List.mem_singleton.1 h) (hcount _)
      · cases h
    · split at h
      · exact absurd (List.mem_singleton.1 h) hdate
      · cases h
    · exact h
  · exact Or.inr

theorem unknownReference_mem_iff {kind : ConditionKind} {name : String} :
    .unknownReference kind name ∈ warningsAt events i e ↔
      name ≠ "" ∧ (∀ x ∈ events, x.name ≠ name) ∧
        ∃ c ∈ e.conditions, c.kind = kind ∧ name ∈ reference? c := by
  rw [mem_warningsAt_iff (f := .unknownReference kind name) (by simp) (by simp)]
  simp only [mem_referenceFindings, Finding.unknownReference.injEq, reduceCtorEq, false_and, or_false,
    and_false]
  constructor
  · rintro ⟨c, hc, _, hname, ⟨rfl, rfl⟩, hne, hnone⟩
    exact ⟨hne, hnone, c, hc, rfl, hname⟩
  · rintro ⟨hne, hnone, c, hc, rfl, hname⟩
    exact ⟨c, hc, name, hname, ⟨rfl, rfl⟩, hne, hnone⟩

theorem notAnIncome_mem_iff {name : String} :
    .notAnIncome name ∈ warningsAt events i e ↔
      name ≠ "" ∧ (∃ x ∈ events, x.name = name) ∧
        (∀ x ∈ events, x.isIncome = true → x.name ≠ name) ∧
          ∃ amount, .incomeIsAbove name amount ∈ e.conditions := by
  rw [mem_warningsAt_iff (f := .notAnIncome name) (by simp) (by simp)]
  simp only [mem_referenceFindings, Finding.notAnIncome.injEq, reduceCtorEq, false_and, or_false,
    false_or]
  constructor
  · rintro ⟨c, hc, _, hname, hknown, rfl, hne, hkind, hnone⟩
    cases c <;> cases hkind
    cases hname
    exact ⟨hne, hknown hne, hnone, _, hc⟩
  · rintro ⟨hne, hknown, hnone, amount, hc⟩
    exact ⟨_, hc, name, rfl, fun _ => hknown, rfl, hne, rfl, hnone⟩

/-! ## Declared further on -/

/-- The last match of a list stands at `n` or after it exactly if some match does. -/
theorem exists_mem_drop_iff {β : Type} (p : β → Bool) (l : List β) (n : Nat) :
    (∃ x ∈ l.drop n, p x = true) ↔
      ∃ k ∈ (l.zipIdx.reverse.find? fun q => p q.1).map Prod.snd, n ≤ k := by
  induction l using List.reverseRecOn with
  | nil => simp
  | append_singleton l y ih =>
    rw [List.zipIdx_append, List.reverse_append, Nat.zero_add]
    show _ ↔ ∃ k ∈ (((y, l.length) :: l.zipIdx.reverse).find? fun q => p q.1).map Prod.snd, n ≤ k
    cases hy : p y with
    | true =>
      have hlast : (∃ x ∈ (l ++ [y]).drop n, p x = true) ↔ n ≤ l.length := by
        constructor
        · rintro ⟨x, hx, -⟩
          have := List.length_pos_of_mem hx
          rw [List.length_drop, List.length_append, List.length_singleton] at this
          omega
        · intro hn
          refine ⟨y, ?_, hy⟩
          rw [List.drop_append_of_le_length hn]
          exact List.mem_append_right _ List.mem_cons_self
      rw [hlast]
      simp [hy]
    | false =>
      have hinit : (∃ x ∈ (l ++ [y]).drop n, p x = true) ↔ ∃ x ∈ l.drop n, p x = true := by
        rw [List.drop_append]
        constructor
        · rintro ⟨x, hx, hpx⟩
          rcases List.mem_append.1 hx with hx | hx
          · exact ⟨x, hx, hpx⟩
          · rw [List.mem_singleton.1 (List.mem_of_mem_drop hx), hy] at hpx
            cases hpx
        · rintro ⟨x, hx, hpx⟩
          exact ⟨x, List.mem_append_left _ hx, hpx⟩
      rw [hinit, ih, List.find?_cons_of_neg (by simp [hy])]

/-- Later than the first balance-gated events of a list are those after them. -/
theorem isLater_iff {before : Nat} {name : String} :
    isLater events before name = true ↔
      ∃ x ∈ (events.filter Event.isBalanceGated).drop before, x.name = name := by
  have h := exists_mem_drop_iff (fun x : Event α => decide (x.name = name))
    (events.filter Event.isBalanceGated) before
  simp only [decide_eq_true_eq] at h
  rw [h, isLater, gatedPosition?]
  cases ((events.filter Event.isBalanceGated).zipIdx.reverse.find? _).map Prod.snd with
  | none => simp
  | some k =>
    simp only [decide_eq_true_eq, Nat.lt_succ_iff, Option.mem_some_iff, exists_eq_left']

theorem drop_countP_filter {β : Type} (p : β → Bool) (l : List β) (n : Nat) :
    (l.filter p).drop ((l.take n).countP p) = (l.drop n).filter p := by
  calc (l.filter p).drop ((l.take n).countP p)
      = ((l.take n).filter p ++ (l.drop n).filter p).drop ((l.take n).filter p).length := by
        rw [← List.filter_append, List.take_append_drop, List.countP_eq_length_filter]
    _ = (l.drop n).filter p := List.drop_left

/-- A condition waits for the name that it refers to, unless it only notes it beside a balance. -/
theorem mem_awaited?_iff {c : Condition α} {name : String} :
    name ∈ c.awaited? ↔ ¬ isNetworthCondition c = true ∧ name ∈ reference? c := by
  cases c <;> simp [Condition.awaited?, isNetworthCondition, reference?]

theorem forwardReference_mem_iff {name : String} :
    .forwardReference name ∈ warningsAt events i e ↔
      (∃ c ∈ e.conditions, name ∈ c.awaited?) ∧
        ∃ x ∈ events.drop (i + 1), x.isBalanceGated = true ∧ x.name = name := by
  have hlater : isLater events ((events.take (i + 1)).countP Event.isBalanceGated) name = true ↔
      ∃ x ∈ events.drop (i + 1), x.isBalanceGated = true ∧ x.name = name := by
    rw [isLater_iff, drop_countP_filter]
    simp only [List.mem_filter, and_assoc]
  rw [mem_warningsAt_iff (f := .forwardReference name) (by simp) (by simp)]
  simp only [mem_referenceFindings, Finding.forwardReference.injEq, reduceCtorEq, false_and, false_or,
    mem_awaited?_iff, ← hlater]
  constructor
  · rintro ⟨c, hc, _, hname, -, rfl, hkind, hforward⟩
    exact ⟨⟨c, hc, hkind, hname⟩, hforward⟩
  · rintro ⟨⟨c, hc, hkind, hname⟩, hforward⟩
    obtain ⟨x, hx, -, hxname⟩ := hlater.1 hforward
    have hknown : ∃ x ∈ events, x.name = name := ⟨x, List.mem_of_mem_drop hx, hxname⟩
    exact ⟨c, hc, name, hname, fun _ => hknown, rfl, hkind, hforward⟩

end Lint

end Cashflow

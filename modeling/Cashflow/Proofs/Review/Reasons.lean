import Cashflow.Proofs.Review.Findings

/-!
# Findings and their reasons

What the linter reports about an event can be said without its walk, from the fields of the event
and of those that are declared before and after it: each finding has a reason, and is there exactly
if the reason holds (`Finding.given`).

* Reasons to call an event an error are in the event alone (`errorsGiven`).
* A shared name is reported at the first event that has it, which no event before it does and some
  event after it does.
* A condition names an event that is not there, or else one that is no income, and besides one that
  is declared further on and evaluated in the second pass (`referencesGiven`).

The report lists these findings and no others, each under the name of its event, event by event and
in this order (`lint_eq_given`).
-/

namespace Cashflow

/-- The finding, if there is this reason for it. -/
def Finding.given {α : Type} (f : Finding α) (reason : Prop) [Decidable reason] :
    List (Finding α) :=
  if reason then [f] else []

theorem Finding.given_congr {α : Type} (f : Finding α) {p q : Prop} [Decidable p] [Decidable q]
    (h : p ↔ q) : f.given p = f.given q := by
  simp only [given, h]

namespace Lint
variable {α : Type}

/-! ## Reasons -/

section Names
variable (events : List (Event α)) (name : String)

/-- A name that is not empty, and no event has it. -/
def NamesNone : Prop := name ≠ "" ∧ ∀ x ∈ events, x.name ≠ name

/-- A name that is not empty, and no income has it. -/
def NamesNoIncome : Prop := name ≠ "" ∧ ∀ x ∈ events, x.type = "income" → x.name ≠ name

/-- A balance-gated event among these has the name. -/
def NamesGated : Prop := ∃ x ∈ events, (∃ c ∈ x.conditions, c.kind.tag = .balance) ∧ x.name = name

instance : Decidable (NamesNone events name) := inferInstanceAs (Decidable (_ ∧ _))

instance : Decidable (NamesNoIncome events name) := inferInstanceAs (Decidable (_ ∧ _))

instance : Decidable (NamesGated events name) := inferInstanceAs (Decidable (∃ _ ∈ _, _))

end Names

section Given
variable [Amount α]

/-- The errors that an event gives reason for. -/
def errorsGiven (e : Event α) : List (Finding α) :=
  Finding.yearlyWithoutRange.given
      (e.recurrence = Recurrence.yearly.name ∧ ∀ c ∈ e.conditions, c.kind ≠ .dateInRange) ++
    (Finding.negativeAmount e.amount).given (e.amount < 0)

end Given

/-- The warnings that a condition gives reason for, where `after` are the events that are declared
after its own. A name that no event has is reported alone. -/
def referencesGiven (events after : List (Event α)) : Condition α → List (Finding α)
  | .dateIs _ | .dateInRange _ _ => []
  | .networthIsAbove name _ =>
    (Finding.unknownReference .networthIsAbove name).given (NamesNone events name)
  | .eventHappened name =>
    if NamesNone events name then [.unknownReference .eventHappened name]
    else (Finding.forwardReference name).given (NamesGated after name)
  | .incomeIsAbove name _ =>
    if NamesNone events name then [.unknownReference .incomeIsAbove name]
    else (Finding.notAnIncome name).given (NamesNoIncome events name) ++
      (Finding.forwardReference name).given (NamesGated after name)

/-- The warnings that an event gives reason for, between those declared before and after it. -/
def warningsGiven (before : List (Event α)) (e : Event α) (after : List (Event α)) :
    List (Finding α) :=
  let events := before ++ e :: after
  (Finding.duplicateName (events.countP fun x => x.name = e.name)).given
      ((∀ x ∈ before, x.name ≠ e.name) ∧ ∃ x ∈ after, x.name = e.name) ++
    Finding.onceWithoutDate.given
      (e.recurrence = Recurrence.once.name ∧
        ∀ c ∈ e.conditions, c.kind ≠ .dateIs ∧ c.kind ≠ .dateInRange) ++
    e.conditions.flatMap (referencesGiven events after)

/-! ## The event by itself -/

theorem isIncome_iff {e : Event α} : e.isIncome = true ↔ e.type = "income" := decide_eq_true_iff

theorem isBalanceGated_iff {e : Event α} :
    e.isBalanceGated = true ↔ ∃ c ∈ e.conditions, c.kind.tag = .balance := by
  simp only [Event.isBalanceGated, Condition.isBalance, List.any_eq_true, decide_eq_true_eq]

theorem dateRange?_eq_none_iff {e : Event α} :
    e.dateRange? = none ↔ ∀ c ∈ e.conditions, c.kind ≠ .dateInRange := by
  have hkind : ∀ c : Condition α, c.range? = none ↔ c.kind ≠ .dateInRange := by
    intro c
    cases c <;> simp [Condition.range?, Condition.kind]
  simp only [Event.dateRange?, List.findSome?_eq_none_iff, hkind]

theorem not_any_isCalendar_iff {e : Event α} :
    ¬ e.conditions.any Condition.isCalendar = true ↔
      ∀ c ∈ e.conditions, c.kind ≠ .dateIs ∧ c.kind ≠ .dateInRange := by
  have hkind : ∀ c : Condition α,
      ¬ c.isCalendar = true ↔ c.kind ≠ .dateIs ∧ c.kind ≠ .dateInRange := by
    intro c
    cases c <;> simp [Condition.isCalendar, Condition.kind, ConditionKind.tag]
  simp only [List.any_eq_true, not_exists, not_and, hkind]

theorem errorsOf_eq [Amount α] (e : Event α) : errorsOf e = errorsGiven e := by
  refine congrArg (· ++ _) (Finding.given_congr _ (and_congr_right' ?_))
  rw [Option.isNone_iff_eq_none, dateRange?_eq_none_iff]

/-! ## The event among the others -/

section Place
variable {before after : List (Event α)} {e : Event α}

/-- Sharing is reported at the first event of a name, if one of those after it has the name too. -/
theorem shared_iff :
    (1 < nameCount (before ++ e :: after) e.name ∧
        ¬ (before.map Event.name).contains e.name = true) ↔
      (∀ x ∈ before, x.name ≠ e.name) ∧ ∃ x ∈ after, x.name = e.name := by
  have hfirst : ¬ (before.map Event.name).contains e.name = true ↔
      ∀ x ∈ before, x.name ≠ e.name := by
    simp only [List.contains_iff_mem, List.mem_map, not_exists, not_and]
  rw [hfirst, and_comm]
  refine and_congr_right fun h => ?_
  have hbefore : before.countP (fun x => x.name = e.name) = 0 := by
    simpa [List.countP_eq_zero] using h
  rw [nameCount, List.countP_append, hbefore, List.countP_cons_of_pos (by simp), Nat.zero_add,
    Nat.lt_add_left_iff_pos, List.countP_pos_iff]
  simp only [decide_eq_true_eq]

/-- Later in the second pass are the balance-gated events declared after. -/
theorem isLater_iff_namesGated {name : String} :
    isLater (before ++ e :: after) ((before ++ [e]).countP Event.isBalanceGated) name = true ↔
      NamesGated after name := by
  have hsplit : before ++ e :: after = (before ++ [e]) ++ after := List.append_cons before e after
  rw [isLater_iff, hsplit, List.filter_append, List.countP_eq_length_filter, List.drop_left]
  simp only [NamesGated, List.mem_filter, isBalanceGated_iff, and_assoc]

theorem namesNone_iff {events : List (Event α)} {name : String} :
    NamesNone events name ↔ name ≠ "" ∧ ¬ events.any (fun x => x.name = name) = true := by
  simp [NamesNone]

theorem namesNoIncome_iff {events : List (Event α)} {name : String} :
    NamesNoIncome events name ↔
      name ≠ "" ∧ ¬ events.any (fun x => x.isIncome && x.name = name) = true := by
  simp [NamesNoIncome, isIncome_iff]

theorem conditionFindings_eq (c : Condition α) :
    conditionFindings (before ++ e :: after) ((before ++ [e]).countP Event.isBalanceGated) c =
      referencesGiven (before ++ e :: after) after c := by
  cases c with
  | dateIs d => rfl
  | dateInRange first last => rfl
  | networthIsAbove name x =>
    simp only [conditionFindings, reference?, referenceFindings, ← namesNone_iff]
    simp [referencesGiven, Finding.given, isIncomeCondition, isNetworthCondition, Condition.kind]
  | eventHappened name =>
    simp only [conditionFindings, reference?, referenceFindings, ← namesNone_iff,
      isLater_iff_namesGated]
    simp [referencesGiven, Finding.given, isIncomeCondition, isNetworthCondition, Condition.kind]
  | incomeIsAbove name x =>
    simp only [conditionFindings, reference?, referenceFindings, ← namesNone_iff,
      isLater_iff_namesGated]
    simp [referencesGiven, Finding.given, isIncomeCondition, isNetworthCondition, Condition.kind,
      namesNoIncome_iff]

theorem warningsAt_eq [Amount α] :
    warningsAt (before ++ e :: after) before.length e = warningsGiven before e after := by
  have htake : (before ++ e :: after).take (before.length + 1) = before ++ [e] := by
    rw [List.take_length_add_append, List.take_succ_cons, List.take_zero]
  rw [warningsAt, warningsOf, List.take_left, htake,
    List.flatMap_congr fun c _ => conditionFindings_eq c]
  refine congrArg (· ++ _) (congrArg₂ (· ++ ·) (Finding.given_congr _ shared_iff) ?_)
  exact Finding.given_congr _ (and_congr_right' not_any_isCalendar_iff)

end Place

end Lint

open Lint

/-- The linter reports the findings for which there is a reason and no others, each under the name of
its event, event by event in the order of their declaration. -/
theorem lint_eq_given {α : Type} [Amount α] (s : Scenario α) :
    s.lint.errors = (s.events.flatMap fun e => (errorsGiven e).map (Issue.mk e.name)) ∧
    s.lint.warnings = s.events.zipIdx.flatMap fun p =>
      (warningsGiven (s.events.take p.2) p.1 (s.events.drop (p.2 + 1))).map (Issue.mk p.1.name) := by
  constructor
  · exact List.flatMap_congr fun e _ => congrArg (List.map (Issue.mk e.name)) (errorsOf_eq e)
  · rw [warnings_lint]
    refine List.flatMap_congr fun p hp => congrArg (List.map (Issue.mk p.1.name)) ?_
    obtain ⟨hlt, hget⟩ := List.getElem?_eq_some_iff.1 (List.mem_zipIdx_iff_getElem?.1 hp)
    have hplace : warningsAt (s.events.take p.2 ++ p.1 :: s.events.drop (p.2 + 1))
        (s.events.take p.2).length p.1 =
          warningsGiven (s.events.take p.2) p.1 (s.events.drop (p.2 + 1)) := warningsAt_eq
    rwa [← hget, List.getElem_cons_drop, List.take_append_drop, List.length_take,
      Nat.min_eq_left (Nat.le_of_lt hlt), hget] at hplace

/-- Two rents of one name, the first of which waits for that name; a deposit in the first pass; and a
bonus that waits for itself and for wages that nobody pays. -/
def flatmates : Scenario Rat where
  name := "Flatmates"
  events := [
    { name := "Rent", type := "expense", amount := 5, recurrence := "once",
      conditions := [.eventHappened "Rent", .incomeIsAbove "Rent" 1, .networthIsAbove "Rent" 1] },
    { name := "Rent", type := "expense", amount := -5, recurrence := "yearly",
      conditions := [.eventHappened "Deposit", .eventHappened ""] },
    { name := "Deposit", type := "expense", amount := 100, recurrence := "once",
      conditions := [.dateIs ⟨2025, 1, 1⟩] },
    { name := "Bonus", type := "income", amount := 10, recurrence := "monthly",
      conditions := [.eventHappened "Bonus", .incomeIsAbove "Wages" 0] }]

/-- A name stands for all events that have it, so what names itself names its namesake further on; a
name of the first pass, and one that no event further on has, is no forward reference. -/
theorem lint_eq_given_flatmates :
    flatmates.lint.errors.map (fun i => (i.event, i.finding)) =
      [("Rent", .yearlyWithoutRange), ("Rent", .negativeAmount (-5))] ∧
    flatmates.lint.warnings.map (fun i => (i.event, i.finding)) =
      [("Rent", .duplicateName 2), ("Rent", .onceWithoutDate), ("Rent", .forwardReference "Rent"),
        ("Rent", .notAnIncome "Rent"), ("Rent", .forwardReference "Rent"),
        ("Bonus", .unknownReference .incomeIsAbove "Wages")] ∧
    flatmates.lint.codes =
      ["yearly-without-range", "negative-amount", "duplicate-name", "once-without-date",
        "forward-reference", "income-reference-not-income", "forward-reference",
        "unknown-reference"] := by
  obtain ⟨herrors, hwarnings⟩ := lint_eq_given flatmates
  rw [LintReport.codes, LintReport.issues, herrors, hwarnings]
  decide +kernel

end Cashflow

import Cashflow.Amount
import Cashflow.Scenario.Event
import Cashflow.Review.Invalid

/-!
# Linting scenarios

The simulator skips events that can never fire without a word; `lint` finds them before a run,
together with constructs that are legal but rarely meant.

* Errors: a yearly event without a range, a negative amount.
* Warnings: a name shared by several events, a one-time event without a calendar condition, and for
  each reference of a condition a name that is no event, that is no income where an income is
  needed, or that is evaluated later in the same pass.

The walk over the events carries the number of balance-gated events so far and the names whose
sharing is already reported.
-/

namespace Cashflow

/-- What is found about an event. -/
inductive Finding (α : Type) where
  | yearlyWithoutRange
  | negativeAmount (amount : α)
  | duplicateName (count : Nat)
  | onceWithoutDate
  | unknownReference (kind : ConditionKind) (name : String)
  | notAnIncome (name : String)
  | forwardReference (name : String)
deriving DecidableEq

structure Issue (α : Type) where
  event : String
  finding : Finding α

structure LintReport (α : Type) where
  scenario : String
  errors : List (Issue α) := []
  warnings : List (Issue α) := []

/-- Whether a scenario can be used as it is. -/
inductive Verdict where
  | valid
  | errors
  | warnings
deriving DecidableEq

def Verdict.exitCode : Verdict → Nat
  | .valid => 0
  | .errors => 1
  | .warnings => 2

def Finding.code {α : Type} : Finding α → String
  | .yearlyWithoutRange => "yearly-without-range"
  | .negativeAmount _ => "negative-amount"
  | .duplicateName _ => "duplicate-name"
  | .onceWithoutDate => "once-without-date"
  | .unknownReference _ _ => "unknown-reference"
  | .notAnIncome _ => "income-reference-not-income"
  | .forwardReference _ => "forward-reference"

/-! ## The walk -/

namespace Lint
variable {α : Type} [Amount α]

/-- Positions among the balance-gated events, the last one of each name. -/
def gatedPosition? (events : List (Event α)) (name : String) : Option Nat :=
  let gated := events.filter Event.isBalanceGated
  (gated.zipIdx.reverse.find? fun p => p.1.name = name).map Prod.snd

/-- The event name that a condition refers to. -/
def reference? : Condition α → Option String
  | .eventHappened e | .incomeIsAbove e _ | .networthIsAbove e _ => some e
  | _ => none

def isIncomeCondition : Condition α → Bool
  | .incomeIsAbove _ _ => true
  | _ => false

def isNetworthCondition : Condition α → Bool
  | .networthIsAbove _ _ => true
  | _ => false

/-- An event that is evaluated later than the `before` balance-gated events, the present one
included. -/
def isLater (events : List (Event α)) (before : Nat) (name : String) : Bool :=
  match gatedPosition? events name with
  | some p => decide (before < p + 1)
  | none => false

/-- What is found about the reference `name` of a condition. -/
def referenceFindings (events : List (Event α)) (before : Nat) (c : Condition α) (name : String) :
    List (Finding α) :=
  if name ≠ "" ∧ ¬ events.any fun e => e.name = name then [.unknownReference c.kind name]
  else
    (if name ≠ "" ∧ isIncomeCondition c ∧ ¬ events.any fun e => e.isIncome && e.name = name then
      [.notAnIncome name] else []) ++
    (if ¬ isNetworthCondition c ∧ isLater events before name then [.forwardReference name] else [])

def conditionFindings (events : List (Event α)) (before : Nat) (c : Condition α) :
    List (Finding α) :=
  match reference? c with
  | some name => referenceFindings events before c name
  | none => []

def errorsOf (e : Event α) : List (Finding α) :=
  (if e.recurrence = Recurrence.yearly.name ∧ e.dateRange?.isNone then [.yearlyWithoutRange]
    else []) ++
  (if e.amount < 0 then [.negativeAmount e.amount] else [])

/-- The number of events of a name. -/
def nameCount (events : List (Event α)) (name : String) : Nat :=
  events.countP fun e => e.name = name

def warningsOf (events : List (Event α)) (reported : List String) (before : Nat) (e : Event α) :
    List (Finding α) :=
  (if 1 < nameCount events e.name ∧ ¬ reported.contains e.name then
    [.duplicateName (nameCount events e.name)] else []) ++
  (if e.recurrence = Recurrence.once.name ∧ ¬ e.conditions.any Condition.isCalendar then
    [.onceWithoutDate] else []) ++
  e.conditions.flatMap (conditionFindings events before)

def issues (e : Event α) (fs : List (Finding α)) : List (Issue α) := fs.map (Issue.mk e.name)

/-- The warnings from the next event on. -/
def warningsFrom (events : List (Event α)) (reported : List String) (before : Nat) :
    List (Event α) → List (Issue α)
  | [] => []
  | e :: es =>
    let before := if e.isBalanceGated then before + 1 else before
    issues e (warningsOf events reported before e) ++
      warningsFrom events (e.name :: reported) before es

end Lint

def Scenario.lint {α : Type} [Amount α] (s : Scenario α) : LintReport α where
  scenario := s.name
  errors := s.events.flatMap fun e => Lint.issues e (Lint.errorsOf e)
  warnings := Lint.warningsFrom s.events [] 0 s.events

/-! ## Reports -/

/-- Each text once, where it stands first. -/
def distinct : List String → List String := go []
where
  go (seen : List String) : List String → List String
    | [] => []
    | s :: r => if seen.contains s then go seen r else s :: go (s :: seen) r

namespace LintReport
variable {α : Type}

def hasErrors (r : LintReport α) : Bool := !r.errors.isEmpty

def hasWarnings (r : LintReport α) : Bool := !r.warnings.isEmpty

def verdict (r : LintReport α) : Verdict :=
  if r.hasErrors then .errors else if r.hasWarnings then .warnings else .valid

def issues (r : LintReport α) : List (Issue α) := r.errors ++ r.warnings

def codes (r : LintReport α) : List String := r.issues.map fun i => i.finding.code

/-- A report with errors rejects its scenario, naming each event once. -/
def rejection? (r : LintReport α) : Option Rejection :=
  if r.hasErrors then
    some ⟨r.scenario, s!"{natText r.errors.length} lint error(s)",
      distinct (r.errors.map Issue.event)⟩
  else none

end LintReport

/-! ## Wording -/

def Finding.message : Finding Float → String
  | .yearlyWithoutRange => "yearly event has no date-in-range condition and will never fire"
  | .negativeAmount x =>
    s!"amount {Decimal.text x} is negative; use the event type for the sign"
  | .duplicateName n => s!"{natText n} events share this name and its firing history"
  | .onceWithoutDate => "one-time event has no date condition"
  | .unknownReference kind name => s!"{kind.name} references unknown event '{name}'"
  | .notAnIncome name => s!"income-is-above references '{name}', which is never an income"
  | .forwardReference name =>
    s!"'{name}' is evaluated later in the same pass; same-month firings are not visible"

namespace Issue

def text (i : Issue Float) : String := s!"{i.event}: {i.finding.message} [{i.finding.code}]"

def toValue (i : Issue Float) : Value :=
  .mapping [("event", .text i.event), ("code", .text i.finding.code),
    ("message", .text i.finding.message)]

end Issue

namespace LintReport

def text (r : LintReport Float) : String :=
  String.intercalate "\n"
    ((if r.hasErrors then "❌ Lint failed" else "✅ Lint passed") ::
      (r.errors.map fun i => "Error: " ++ i.text) ++ r.warnings.map fun i => "Warning: " ++ i.text)

def toValue (r : LintReport Float) : Value :=
  .mapping [("scenario", .text r.scenario), ("errors", .list (r.errors.map Issue.toValue)),
    ("warnings", .list (r.warnings.map Issue.toValue)), ("has_errors", .bool r.hasErrors),
    ("has_warnings", .bool r.hasWarnings), ("is_valid", .bool !r.hasErrors),
    ("exit_code", .int r.verdict.exitCode)]

end LintReport

end Cashflow

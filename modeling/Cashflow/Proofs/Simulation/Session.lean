import Cashflow.Proofs.Simulation.Invariant
import Cashflow.Proofs.Simulation.Turns

/-!
# Months in any order

A session evaluates months one after another on the same books: any months, in any order, the same
one again, each with events of its own for its two passes. Where a fault stops a month, the session
goes on with the books that the fault left.

* `Books.session r tasks b` : the books after the tasks;
* `Books.firings r tasks b` : the trace of the session. A month that is evaluated has its entry made
  anew, so it is read off the entries, task by task;
* `Trace.Allowed H` : the recurrence of each firing allowed it after the firings before it.

The firing history, unlike the entries, goes on through the whole session, and what a recurrence
asks of the trace it finds there. So the history is that of the trace and every firing was allowed
(`explains_session`). A run is a session of its months (`evaluateMonths_eq_session`).
-/

namespace Cashflow

/-! ## Firings that were allowed -/

namespace Trace

section Parts
variable {α : Type} {H : Trace α}

def Allowed (H : Trace α) : Prop :=
  ∀ before t after, H = before ++ t :: after → MayFire before t

theorem allowed_nil : Allowed ([] : Trace α) := by
  intro before t after h
  simp at h

theorem Allowed.concat (h : H.Allowed) {t : Turn α} (ht : H.MayFire t) : Allowed (H ++ [t]) := by
  intro before u after he
  rcases List.eq_nil_or_concat' after with rfl | ⟨after, w, rfl⟩
  · obtain ⟨rfl, hu⟩ := List.append_inj' he rfl
    rw [← List.head_eq_of_cons_eq hu]
    exact ht
  · rw [← List.cons_append, ← List.append_assoc] at he
    exact h before u after (List.append_inj' he rfl).1

/-- The history is that of the trace, whose firings were all allowed. -/
structure Explains (H : Trace α) (h : History) : Prop where
  history : h = H.history
  allowed : H.Allowed

end Parts

variable {α : Type} [Amount α] {r : Registry}

theorem allowed_ofTurns (opening : α) (ts : List (Turn α)) : (ofTurns opening ts).Allowed := by
  induction ts using List.reverseRecOn with
  | nil => exact allowed_nil
  | append_singleton ts t ih =>
    rw [ofTurns_concat]
    by_cases hf : Fires opening (ofTurns opening ts) t
    · rw [visit_of_fires hf]
      exact ih.concat hf.1
    · rw [visit_of_not_fires hf]
      exact ih

omit [Amount α] in
/-- A gate answers from the firings in the history, whatever the month fired. -/
theorem canFire_eq {H : Trace α} {m : Moment α} {e : Event α} {k : Recurrence}
    (hhistory : m.history = H.history) (hforeign : m.foreign = false)
    (hk : r.recurrence? e.recurrence = some k) :
    e.canFire r m = if H.Stuck ⟨m.month, e⟩ then .error (.value (.wholeText ""))
      else .ok (decide (H.MayFire ⟨m.month, e⟩)) := by
  have hname := Recurrence.eq_name_of_ofName? (Option.filter_eq_some_iff.1 hk).1
  -- A recurrence does not look at the firings of the month, so these may be those of the trace.
  have hshown : H.Shown { m with fired := (H.during m.month).map Turn.event } :=
    ⟨hhistory, rfl, hforeign⟩
  have hsame : k.isOpen e { m with fired := (H.during m.month).map Turn.event } =
      k.isOpen e m := by
    cases k <;> rfl
  have hopen := hshown.isOpen_eq hname
  rw [hsame] at hopen
  rw [Event.canFire, hk]
  show (k.isOpen e m).mapError Fault.value = _
  rw [hopen]
  show Except.mapError _ (if H.Stuck ⟨m.month, e⟩ then _ else _) = _
  split <;> rfl

/-- What fires is allowed by the firings in the history. -/
theorem mayFire_of_shouldFire {H : Trace α} {m : Moment α} {e : Event α}
    (hhistory : m.history = H.history) (hforeign : m.foreign = false)
    (h : e.shouldFire r m = .ok true) : H.MayFire ⟨m.month, e⟩ := by
  have hcan := (shouldFire_eq_true_iff.1 h).1
  cases hk : r.recurrence? e.recurrence with
  | none =>
    rw [Event.canFire, hk] at hcan
    cases hcan
  | some k =>
    rw [canFire_eq hhistory hforeign hk] at hcan
    split at hcan
    · cases hcan
    · exact of_decide_eq_true (Except.ok.inj hcan)

end Trace

/-! ## Sessions -/

/-- A month to be evaluated, with the events of its two passes. -/
structure MonthTask (α : Type) where
  month : Date
  first : List (Event α)
  second : List (Event α)

/-- What an outcome holds, or what a fault left. -/
def Halted.held {σ : Type} : Except (Halted σ) σ → σ
  | .ok s => s
  | .error x => x.left

variable {α : Type} [Amount α] (r : Registry)

namespace Books

/-- The books after a task, also if a fault ends it. -/
def perform (b : Books α) (task : MonthTask α) : Books α :=
  Halted.held (b.evaluateMonth r task.first task.second task.month)

/-- The books after some tasks in turn. -/
def session (tasks : List (MonthTask α)) (b : Books α) : Books α := tasks.foldl (perform r) b

/-- The events that the entry of the month lists after a task, each with the month. -/
def firedBy (b : Books α) (task : MonthTask α) : Trace α :=
  (((b.perform r task).cashflow.get? task.month.key).getD {}).events.map (Turn.mk task.month)

/-- The firings of some tasks in turn. -/
def firings : List (MonthTask α) → Books α → Trace α
  | [], _ => []
  | task :: tasks, b => b.firedBy r task ++ firings tasks (b.perform r task)

end Books

open Trace

variable {r} {H : Trace α}

/-! ## Tasks -/

/-- The month in progress has fired events of the task only, and its history is explained by the
firings before it and its own. -/
structure OpenMonth.Resumes (H : Trace α) (task : MonthTask α) (o : OpenMonth α) : Prop where
  month : o.month = task.month
  listed : ∀ e ∈ o.entry.events, e ∈ task.first ++ task.second
  explains : Explains (H ++ o.entry.events.map (Turn.mk task.month)) o.history

namespace OpenMonth.Resumes
variable {task : MonthTask α} {o : OpenMonth α} {e : Event α}

theorem fire (h : o.Resumes H task) (he : e ∈ task.first ++ task.second)
    (hfires : e.shouldFire r o.moment = .ok true) : (o.fire e).Resumes H task := by
  have hallowed := mayFire_of_shouldFire (m := o.moment) h.explains.history rfl hfires
  have hmonth : o.moment.month = task.month := h.month
  rw [hmonth] at hallowed
  have htrace : H ++ (o.fire e).entry.events.map (Turn.mk task.month) =
      H ++ o.entry.events.map (Turn.mk task.month) ++ [⟨task.month, e⟩] := by
    show H ++ (o.entry.events ++ [e]).map (Turn.mk task.month) = _
    rw [List.map_append, List.append_assoc, List.map_singleton]
  refine ⟨h.month, List.forall_mem_append.2 ⟨h.listed, List.forall_mem_singleton.2 he⟩, ?_⟩
  rw [htrace]
  refine ⟨?_, h.explains.allowed.concat hallowed⟩
  show o.history.record e.name o.month.key = _
  rw [history_concat, ← h.explains.history, h.month]

/-- In a ledger that the entry of the month is put into, the month lists what it fired. -/
theorem events_put (h : o.Resumes H task) (ledger : Keyed String (Entry α)) :
    (((ledger.put o.month.key o.entry).get? task.month.key).getD {}).events =
      o.entry.events := by
  rw [h.month, Keyed.get?_put_self]
  rfl

theorem leaves_firstPass (h : o.Resumes H task) :
    Leaves (OpenMonth.Resumes H task) (o.firstPass r task.first) :=
  OpenMonth.leaves_pass (fun _ he _ ho hfires => ho.fire (List.mem_append_left _ he) hfires) h

theorem leaves_evaluate (h : o.Resumes H task) :
    Leaves (OpenMonth.Resumes H task) (o.evaluate r task.first task.second) := by
  unfold OpenMonth.evaluate
  refine h.leaves_firstPass.bind fun o ho => ?_
  have hshown : o.refresh.Resumes H task := ⟨ho.month, ho.listed, ho.explains⟩
  refine OpenMonth.leaves_pass (fun e he o ho hfires => ?_) hshown
  have hfired := ho.fire (List.mem_append_right _ he) hfires
  exact ⟨hfired.month, hfired.listed, hfired.explains⟩

end OpenMonth.Resumes

theorem resumes_openMonth {b : Books α} (h : H.Explains b.history) (task : MonthTask α) :
    (b.openMonth task.month).Resumes H task := by
  refine ⟨rfl, nofun, ?_⟩
  show Explains (H ++ []) b.history
  rw [List.append_nil]
  exact h

/-- Whether a task ends or is stopped, the entry of its month and the history are those of the month
in progress. -/
theorem exists_performed {b : Books α} (h : H.Explains b.history) (task : MonthTask α) :
    ∃ o : OpenMonth α, o.Resumes H task ∧ (b.perform r task).history = o.history ∧
      b.firedBy r task = o.entry.events.map (Turn.mk task.month) := by
  have hleaves := (resumes_openMonth h task).leaves_evaluate (r := r)
  unfold Books.firedBy Books.perform Books.evaluateMonth
  cases hx : (b.openMonth task.month).evaluate r task.first task.second with
  | ok o =>
    rw [hx] at hleaves
    exact ⟨o, hleaves, rfl, congrArg _ (hleaves.events_put b.cashflow)⟩
  | error x =>
    rw [hx] at hleaves
    exact ⟨x.left, hleaves, rfl, congrArg _ (hleaves.events_put b.cashflow)⟩

theorem explains_perform {b : Books α} (h : H.Explains b.history) (task : MonthTask α) :
    Explains (H ++ b.firedBy r task) (b.perform r task).history := by
  obtain ⟨o, ho, hhistory, hfired⟩ := exists_performed (r := r) h task
  rw [hhistory, hfired]
  exact ho.explains

theorem mem_firedBy {b : Books α} (h : H.Explains b.history) {task : MonthTask α} {t : Turn α}
    (ht : t ∈ b.firedBy r task) : t.month = task.month ∧ t.event ∈ task.first ++ task.second := by
  obtain ⟨o, ho, -, hfired⟩ := exists_performed (r := r) h task
  rw [hfired] at ht
  obtain ⟨e, he, rfl⟩ := List.mem_map.1 ht
  exact ⟨rfl, ho.listed e he⟩

/-! ## The trace of a session -/

/-- The history of a session is that of its trace, whose firings were all allowed. -/
theorem explains_session {b : Books α} (h : H.Explains b.history) (tasks : List (MonthTask α)) :
    Explains (H ++ b.firings r tasks) (b.session r tasks).history := by
  induction tasks generalizing H b with
  | nil =>
    show Explains (H ++ []) b.history
    rw [List.append_nil]
    exact h
  | cons task tasks ih =>
    rw [Books.firings, ← List.append_assoc]
    exact ih (explains_perform h task)

theorem mem_firings {b : Books α} (h : H.Explains b.history) {tasks : List (MonthTask α)}
    {t : Turn α} (ht : t ∈ b.firings r tasks) :
    ∃ task ∈ tasks, t.month = task.month ∧ t.event ∈ task.first ++ task.second := by
  induction tasks generalizing H b with
  | nil => cases ht
  | cons task tasks ih =>
    rcases List.mem_append.1 ht with ht | ht
    · exact ⟨task, List.mem_cons_self, mem_firedBy h ht⟩
    · obtain ⟨task', htask, ht⟩ := ih (explains_perform h task) ht
      exact ⟨task', List.mem_cons_of_mem task htask, ht⟩

theorem explains_start (opening : α) :
    Explains ([] : Trace α) ({ balance := opening } : Books α).history := ⟨rfl, allowed_nil⟩

/-- Firings come in the order of the months of the session. -/
theorem pairwise_firings {R : Date → Date → Prop} (hR : ∀ m, R m m) {b : Books α}
    (h : H.Explains b.history) {tasks : List (MonthTask α)}
    (htasks : tasks.Pairwise fun p q => R p.month q.month) :
    (b.firings r tasks).Pairwise fun u t => R u.month t.month := by
  induction tasks generalizing H b with
  | nil => exact List.Pairwise.nil
  | cons task tasks ih =>
    obtain ⟨hlater, htasks⟩ := List.pairwise_cons.1 htasks
    have hnext := explains_perform (r := r) h task
    refine List.pairwise_append.2 ⟨?_, ih hnext htasks, fun u hu t ht => ?_⟩
    · obtain ⟨o, -, -, hfired⟩ := exists_performed (r := r) h task
      rw [hfired, List.pairwise_map]
      exact List.pairwise_of_forall fun _ _ => hR task.month
    · obtain ⟨task', htask, hmonth, -⟩ := mem_firings hnext ht
      rw [(mem_firedBy h hu).1, hmonth]
      exact hlater task' htask

/-! ## Runs -/

/-- Months of the same events that all end are a session. -/
theorem evaluateMonths_eq_session {events : List (Event α)} {months : List Date} {b b' : Books α}
    (h : b.evaluateMonths r events months = .ok b') :
    b' = b.session r (months.map fun m => ⟨m, (passes events).1, (passes events).2⟩) := by
  induction months generalizing b with
  | nil => exact (Except.ok.inj h).symm
  | cons m months ih =>
    obtain ⟨b₁, hb₁, h⟩ := bind_eq_ok.1 h
    have hperform : b.perform r ⟨m, (passes events).1, (passes events).2⟩ = b₁ := by
      rw [Books.perform, hb₁, Halted.held]
    rw [ih h, List.map_cons, ← hperform]
    rfl

end Cashflow

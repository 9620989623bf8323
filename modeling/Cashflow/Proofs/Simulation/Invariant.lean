import Cashflow.Simulation.Run
import Cashflow.Proofs.Except

/-!
# Invariants of a run

A property of books is kept by every run if the opening of a month, its firings in either pass and
its closing or interruption keep it (`KeptBy`): then the books of all months have it, and so do the
books that a fault leaves behind (`KeptBy.leaves_evaluateMonths`, `KeptBy.leaves_writtenBooks`).

The firings are looked at one by one: `JustFired` is the month in progress right after any of them,
and the properties that the firings keep hold there (`KeptBy.of_justFired`). An event that fires has
all of its conditions (`holds_of_shouldFire`).
-/

namespace Cashflow

/-- The outcome has the property, or what a fault left has it. -/
def Leaves {σ : Type} (P : σ → Prop) : Except (Halted σ) σ → Prop
  | .ok s => P s
  | .error x => P x.left

namespace Leaves
variable {σ : Type} {P : σ → Prop}

theorem bind {x : Except (Halted σ) σ} {f : σ → Except (Halted σ) σ} (h : Leaves P x)
    (hf : ∀ s, P s → Leaves P (f s)) : Leaves P (x >>= f) := by
  cases x with
  | ok s => exact hf s h
  | error x => exact h

theorem foldlM {β : Type} {f : σ → β → Except (Halted σ) σ} {l : List β} {s : σ}
    (hf : ∀ s b, P s → Leaves P (f s b)) (h : P s) : Leaves P (l.foldlM f s) := by
  induction l generalizing s with
  | nil => exact h
  | cons b l ih =>
    rw [List.foldlM_cons]
    exact (hf s b h).bind fun t ht => ih ht

end Leaves

variable {α : Type} [Amount α] {r : Registry}

/-! ## What a firing says -/

theorem holds_of_testAll {m : Moment α} {cs : List (Condition α)}
    (h : Condition.testAll r m cs = .ok true) : ∀ c ∈ cs, c.holds m = true := by
  induction cs with
  | nil => exact List.forall_mem_nil _
  | cons c cs ih =>
    unfold Condition.testAll Condition.test at h
    split at h
    · cases hc : c.holds m with
      | true =>
        rw [hc] at h
        exact List.forall_mem_cons.2 ⟨hc, ih h⟩
      | false =>
        rw [hc] at h
        cases h
    · cases h

theorem shouldFire_eq_true_iff {m : Moment α} {e : Event α} :
    e.shouldFire r m = .ok true ↔
      e.canFire r m = .ok true ∧ Condition.testAll r m e.conditions = .ok true := by
  rw [Event.shouldFire, bind_eq_ok]
  constructor
  · rintro ⟨opened, hcan, h⟩
    cases opened with
    | true => exact ⟨hcan, h⟩
    | false => cases h
  · rintro ⟨hcan, htest⟩
    exact ⟨true, hcan, htest⟩

theorem holds_of_shouldFire {m : Moment α} {e : Event α} (h : e.shouldFire r m = .ok true) :
    ∀ c ∈ e.conditions, c.holds m = true :=
  holds_of_testAll (shouldFire_eq_true_iff.1 h).2

/-! ## Passes -/

namespace OpenMonth
variable {apply : OpenMonth α → Event α → OpenMonth α} {P : OpenMonth α → Prop}

/-- The month in progress right after one of the firings of a pass that begins at `o`. -/
def FiredIn (r : Registry) (apply : OpenMonth α → Event α → OpenMonth α) (es : List (Event α))
    (o fired : OpenMonth α) : Prop :=
  ∃ before e after o', es = before ++ e :: after ∧ pass r apply before o = .ok o' ∧
    e.shouldFire r o'.moment = .ok true ∧ fired = apply o' e

theorem leaves_pass {es : List (Event α)}
    (hfire : ∀ e ∈ es, ∀ o, P o → e.shouldFire r o.moment = .ok true → P (apply o e))
    {o : OpenMonth α} (h : P o) : Leaves P (pass r apply es o) := by
  induction es generalizing o with
  | nil => exact h
  | cons e es ih =>
    obtain ⟨hhead, htail⟩ := List.forall_mem_cons.1 hfire
    unfold pass
    split
    · exact h
    · rename_i hf
      exact ih htail (hhead o h hf)
    · exact ih htail h

theorem of_firedIn {es : List (Event α)}
    (hfire : ∀ e ∈ es, ∀ o, P o → e.shouldFire r o.moment = .ok true → P (apply o e))
    {o fired : OpenMonth α} (h : P o) (hf : FiredIn r apply es o fired) : P fired := by
  obtain ⟨before, e, after, o', rfl, ho', he, rfl⟩ := hf
  obtain ⟨hbefore, hrest⟩ := List.forall_mem_append.1 hfire
  have hleaves := leaves_pass hbefore h
  rw [ho'] at hleaves
  exact hrest e List.mem_cons_self o' hleaves he

end OpenMonth

/-! ## Runs -/

/-- `P` of books, `I` of a month in its first pass and `J` of one in its second are kept by whatever
a run of the events does. -/
structure KeptBy (r : Registry) (events : List (Event α)) (P : Books α → Prop)
    (I J : OpenMonth α → Prop) : Prop where
  opens : ∀ b month, P b → I (b.openMonth month)
  first : ∀ e ∈ (passes events).1, ∀ o, I o → e.shouldFire r o.moment = .ok true → I (o.fire e)
  shows : ∀ o, I o → J o.refresh
  second : ∀ e ∈ (passes events).2, ∀ o, J o → e.shouldFire r o.moment = .ok true →
    J (o.fire e).refresh
  closes : ∀ b o, P b → J o → P (b.close o)
  interrupts : ∀ b o, P b → I o ∨ J o → P (b.interrupt o)

/-- The month in progress right after one of the firings of some months in turn. -/
def JustFired (r : Registry) (events : List (Event α)) (b : Books α) (months : List Date)
    (fired : OpenMonth α) : Prop :=
  ∃ before month after b', months = before ++ month :: after ∧
    b.evaluateMonths r events before = .ok b' ∧
    (OpenMonth.FiredIn r .fire (passes events).1 (b'.openMonth month) fired ∨
      ∃ o, (b'.openMonth month).firstPass r (passes events).1 = .ok o ∧
        OpenMonth.FiredIn r (fun o e => (o.fire e).refresh) (passes events).2 o.refresh fired)

namespace KeptBy
variable {events : List (Event α)} {P : Books α → Prop} {I J : OpenMonth α → Prop}
  (h : KeptBy r events P I J)
include h

theorem leaves_firstPass {b : Books α} (hb : P b) (month : Date) :
    Leaves I ((b.openMonth month).firstPass r (passes events).1) :=
  OpenMonth.leaves_pass h.first (h.opens b month hb)

/-- A month that ends does so in its second pass, one that is stopped may be in either. -/
theorem of_evaluate {b : Books α} (hb : P b) (month : Date) :
    (∀ o, (b.openMonth month).evaluate r (passes events).1 (passes events).2 = .ok o → J o) ∧
    ∀ x, (b.openMonth month).evaluate r (passes events).1 (passes events).2 = .error x →
      I x.left ∨ J x.left := by
  have hfirst := h.leaves_firstPass hb month
  unfold OpenMonth.evaluate
  cases hx : (b.openMonth month).firstPass r (passes events).1 with
  | error x =>
    rw [hx] at hfirst
    refine ⟨nofun, fun y hy => ?_⟩
    cases hy
    exact Or.inl hfirst
  | ok o =>
    rw [hx] at hfirst
    have hsecond : Leaves J (o.refresh.secondPass r (passes events).2) :=
      OpenMonth.leaves_pass h.second (h.shows o hfirst)
    rw [ok_bind]
    refine ⟨fun o' ho' => ?_, fun y hy => ?_⟩
    · rw [ho'] at hsecond
      exact hsecond
    · rw [hy] at hsecond
      exact Or.inr hsecond

theorem leaves_evaluateMonth {b : Books α} (hb : P b) (month : Date) :
    Leaves P (b.evaluateMonth r (passes events).1 (passes events).2 month) := by
  obtain ⟨hdone, hstopped⟩ := h.of_evaluate hb month
  unfold Books.evaluateMonth
  split
  · rename_i o ho
    exact h.closes b o hb (hdone o ho)
  · rename_i x hx
    exact h.interrupts b x.left hb (hstopped x hx)

theorem leaves_evaluateMonths {b : Books α} (hb : P b) (months : List Date) :
    Leaves P (b.evaluateMonths r events months) :=
  Leaves.foldlM (fun _ month hb => h.leaves_evaluateMonth hb month) hb

theorem of_justFired {b : Books α} (hb : P b) {months : List Date} {fired : OpenMonth α}
    (hf : JustFired r events b months fired) : I fired ∨ J fired := by
  obtain ⟨before, month, after, b', -, hb', hf⟩ := hf
  have hleaves := h.leaves_evaluateMonths hb before
  rw [hb'] at hleaves
  rcases hf with hf | ⟨o, ho, hf⟩
  · exact Or.inl (OpenMonth.of_firedIn h.first (h.opens b' month hleaves) hf)
  · have hfirst := h.leaves_firstPass hleaves month
    rw [ho] at hfirst
    exact Or.inr (OpenMonth.of_firedIn h.second (h.shows o hfirst) hf)

end KeptBy

/-- What a run keeps holds of the books that it ends with, and of those that a fault leaves. -/
theorem KeptBy.leaves_writtenBooks {s : Scenario α} {P : Books α → Prop} {I J : OpenMonth α → Prop}
    {opening : α} (h : r.wire s.events = .ok () → KeptBy r s.events P I J)
    (hstart : P { balance := opening }) (first last : Date) :
    Leaves P (s.writtenBooks r first last opening) := by
  have hwired : ∀ months, Leaves P
      (s.wiredBooks r opening fun start => start.evaluateMonths r s.events months) := by
    intro months
    unfold Scenario.wiredBooks
    cases hw : r.wire s.events with
    | error f => exact hstart
    | ok u => exact (h hw).leaves_evaluateMonths hstart months
  unfold Scenario.writtenBooks
  split
  · exact (hwired _).bind fun b hb => hb
  · unfold Scenario.books
    simp only [Books.evaluateWindow_eq]
    exact hwired _

end Cashflow

import Mathlib.Data.List.Forall2
import Cashflow.Proofs.Simulation.Outcome
import Cashflow.Proofs.Simulation.Places

/-!
# Runs in step

Two runs are in step when their months and events go together one by one, and so do their books and
their months in progress: whatever one of them asks, the other asks with the same answer, and what
follows keeps them together (`InStep`). Then both end together or stop with the same fault
(`Matches`), and the same places fire in both, in months that go together
(`InStep.evaluateMonths`, `InStep.books`, `InStep.writtenBooks`).
-/

namespace Cashflow

/-- Both ended, with results that go together, or both stopped with the same fault. -/
inductive Matches {σ σ' ρ ρ' : Type} (R : σ → σ' → Prop) :
    Except (Halted ρ) σ → Except (Halted ρ') σ' → Prop where
  | ended {s : σ} {s' : σ'} (h : R s s') : Matches R (.ok s) (.ok s')
  | stopped {x : Halted ρ} {x' : Halted ρ'} (h : x'.fault = x.fault) :
      Matches R (.error x) (.error x')

theorem Matches.bind {σ σ' τ τ' ρ ρ' : Type} {R : σ → σ' → Prop} {Q : τ → τ' → Prop}
    {x : Except (Halted ρ) σ} {x' : Except (Halted ρ') σ'} {f : σ → Except (Halted ρ) τ}
    {f' : σ' → Except (Halted ρ') τ'} (h : Matches R x x')
    (hf : ∀ s s', R s s' → Matches Q (f s) (f' s')) : Matches Q (x >>= f) (x' >>= f') := by
  cases h with
  | ended h => exact hf _ _ h
  | stopped h => exact .stopped h

variable {α : Type} [Amount α]

/-- Events, months, books and months in progress go together by the relations, and keep together
whatever happens. -/
structure InStep (r : Registry) (E : Event α → Event α → Prop) (M : Date → Date → Prop)
    (B : Books α → Books α → Prop) (O : OpenMonth α → OpenMonth α → Prop) : Prop where
  gated : ∀ {e e'}, E e e' → e'.isBalanceGated = e.isBalanceGated
  defect : ∀ {e e'}, E e e' → r.defect? e' = r.defect? e
  opens : ∀ {b b' m m'}, B b b' → M m m' → O (b.openMonth m) (b'.openMonth m')
  asks : ∀ {e e' o o'}, E e e' → O o o' → e'.shouldFire r o'.moment = e.shouldFire r o.moment
  fire : ∀ {e e' o o'}, E e e' → O o o' → O (o.fire e) (o'.fire e')
  refresh : ∀ {o o'}, O o o' → O o.refresh o'.refresh
  closes : ∀ {b b' o o'}, B b b' → O o o' → B (b.close o) (b'.close o')

namespace InStep
variable {r : Registry} {E : Event α → Event α → Prop} {M : Date → Date → Prop}
  {B : Books α → Books α → Prop} {O : OpenMonth α → OpenMonth α → Prop} (h : InStep r E M B O)
include h

/-! ## Events -/

theorem wire_eq {events events' : List (Event α)} (hE : List.Forall₂ E events events') :
    r.wire events' = r.wire events := by
  have hdefect : events'.findSome? r.defect? = events.findSome? r.defect? := by
    induction hE with
    | nil => rfl
    | cons he _ ih => rw [List.findSome?_cons, List.findSome?_cons, h.defect he, ih]
  rw [Registry.wire, Registry.wire, hdefect]

omit h [Amount α] in
theorem forall₂_zipIdx {events events' : List (Event α)} (hE : List.Forall₂ E events events')
    (n : Nat) :
    List.Forall₂ (fun p p' => E p.1 p'.1 ∧ p'.2 = p.2) (events.zipIdx n) (events'.zipIdx n) := by
  induction hE generalizing n with
  | nil => exact .nil
  | cons he _ ih => exact .cons ⟨he, rfl⟩ (ih (n + 1))

theorem forall₂_placedPasses {events events' : List (Event α)}
    (hE : List.Forall₂ E events events') :
    List.Forall₂ (fun p p' => E p.1 p'.1 ∧ p'.2 = p.2) (placedPasses events).1
        (placedPasses events').1 ∧
      List.Forall₂ (fun p p' => E p.1 p'.1 ∧ p'.2 = p.2) (placedPasses events).2
        (placedPasses events').2 := by
  have hplaced := forall₂_zipIdx hE 0
  constructor
  · refine List.rel_filter (fun p p' hp => ?_) hplaced
    simp only [h.gated hp.1]
  · refine List.rel_filter (fun p p' hp => ?_) hplaced
    simp only [h.gated hp.1]

/-! ## Months -/

/-- A pass: `apply` says what a firing does. -/
theorem pass {apply : OpenMonth α → Event α → OpenMonth α}
    (happly : ∀ {e e' o o'}, E e e' → O o o' → O (apply o e) (apply o' e'))
    {es es' : List (Placed α)}
    (hes : List.Forall₂ (fun p p' => E p.1 p'.1 ∧ p'.2 = p.2) es es') {o o' : OpenMonth α}
    (ho : O o o') :
    Matches O (OpenMonth.pass r apply (es.map Prod.fst) o)
        (OpenMonth.pass r apply (es'.map Prod.fst) o') ∧
      OpenMonth.placesOfPass r apply es' o' = OpenMonth.placesOfPass r apply es o := by
  induction hes generalizing o o' with
  | nil => exact ⟨.ended ho, rfl⟩
  | @cons p p' es es' hp _ ih =>
    obtain ⟨e, i⟩ := p
    obtain ⟨e', i'⟩ := p'
    obtain ⟨he, hi⟩ := hp
    obtain rfl : i' = i := hi
    have hasks := h.asks he ho
    simp only [List.map_cons, OpenMonth.pass, OpenMonth.placesOfPass, hasks]
    cases e.shouldFire r o.moment with
    | error f => exact ⟨.stopped rfl, rfl⟩
    | ok fires =>
      cases fires with
      | true =>
        obtain ⟨hpass, hplaces⟩ := ih (happly he ho)
        exact ⟨hpass, congrArg (i' :: ·) hplaces⟩
      | false => exact ih ho

theorem evaluate {events events' : List (Event α)} (hE : List.Forall₂ E events events')
    {o o' : OpenMonth α} (ho : O o o') :
    Matches O (o.evaluate r (passes events).1 (passes events).2)
        (o'.evaluate r (passes events').1 (passes events').2) ∧
      o'.places r (placedPasses events').1 (placedPasses events').2 =
        o.places r (placedPasses events).1 (placedPasses events).2 := by
  obtain ⟨hfirst, hsecond⟩ := h.forall₂_placedPasses hE
  obtain ⟨hone, hplaces⟩ := h.pass h.fire hfirst ho
  have htwo : ∀ p p', O p p' → _ := fun p p' hp =>
    h.pass (fun he ho => h.refresh (h.fire he ho)) hsecond (h.refresh hp)
  rw [← (map_fst_placedPasses events).1, ← (map_fst_placedPasses events).2,
    ← (map_fst_placedPasses events').1, ← (map_fst_placedPasses events').2]
  refine ⟨hone.bind fun p p' hp => (htwo p p' hp).1, ?_⟩
  rw [OpenMonth.places, OpenMonth.places, hplaces]
  unfold OpenMonth.firstPass
  generalize OpenMonth.pass r .fire ((placedPasses events).1.map Prod.fst) o = x at hone ⊢
  generalize OpenMonth.pass r .fire ((placedPasses events').1.map Prod.fst) o' = x' at hone ⊢
  cases hone with
  | ended hp => exact congrArg _ (htwo _ _ hp).2
  | stopped _ => rfl

theorem evaluateMonth {events events' : List (Event α)} (hE : List.Forall₂ E events events')
    {b b' : Books α} (hb : B b b') {m m' : Date} (hm : M m m') :
    Matches B (b.evaluateMonth r (passes events).1 (passes events).2 m)
      (b'.evaluateMonth r (passes events').1 (passes events').2 m') := by
  have hmonth := (h.evaluate hE (h.opens hb hm)).1
  unfold Books.evaluateMonth
  generalize (b.openMonth m).evaluate r _ _ = x at hmonth ⊢
  generalize (b'.openMonth m').evaluate r _ _ = x' at hmonth ⊢
  cases hmonth with
  | ended ho => exact .ended (h.closes hb ho)
  | stopped hfault => exact .stopped hfault

theorem evaluateMonths {events events' : List (Event α)} (hE : List.Forall₂ E events events')
    {months months' : List Date} (hM : List.Forall₂ M months months') {b b' : Books α}
    (hb : B b b') :
    Matches B (b.evaluateMonths r events months) (b'.evaluateMonths r events' months') ∧
      List.Forall₂ (fun p p' => M p.1 p'.1 ∧ p'.2 = p.2) (Books.placesFired r events months b)
        (Books.placesFired r events' months' b') := by
  induction hM generalizing b b' with
  | nil => exact ⟨.ended hb, .nil⟩
  | @cons m m' months months' hm _ ih =>
    have hmonth := h.evaluateMonth hE hb hm
    have hplaces := (h.evaluate hE (h.opens hb hm)).2
    have hfired : ∀ places : List Nat,
        List.Forall₂ (fun p p' => M p.1 p'.1 ∧ p'.2 = p.2) (places.map (m, ·))
          (places.map (m', ·)) := by
      intro places
      rw [List.forall₂_map_left_iff, List.forall₂_map_right_iff, List.forall₂_same]
      exact fun _ _ => ⟨hm, rfl⟩
    unfold Books.evaluateMonths
    rw [List.foldlM_cons, List.foldlM_cons, Books.placesFired, Books.placesFired, hplaces]
    generalize b.evaluateMonth r _ _ m = x at hmonth ⊢
    generalize b'.evaluateMonth r _ _ m' = x' at hmonth ⊢
    cases hmonth with
    | ended hnext =>
      obtain ⟨hrest, hlater⟩ := ih hnext
      exact ⟨hrest, List.rel_append (hfired _) hlater⟩
    | stopped hfault => exact ⟨.stopped hfault, List.rel_append (hfired _) .nil⟩

/-! ## Runs -/

section Runs
variable {s s' : Scenario α} (hE : List.Forall₂ E s.events s'.events) {opening opening' : α}
  (hB : B { balance := opening } { balance := opening' })
include hE hB

theorem wiredBooks {months months' : List Date} (hM : List.Forall₂ M months months') :
    Matches B (s.wiredBooks r opening fun b => b.evaluateMonths r s.events months)
      (s'.wiredBooks r opening' fun b => b.evaluateMonths r s'.events months') := by
  rw [Scenario.wiredBooks, Scenario.wiredBooks, h.wire_eq hE]
  cases r.wire s.events with
  | error f => exact .stopped rfl
  | ok u => exact (h.evaluateMonths hE hM hB).1

theorem placesFired {first last first' last' : Date}
    (hM : List.Forall₂ M (Date.window first last) (Date.window first' last')) :
    List.Forall₂ (fun p p' => M p.1 p'.1 ∧ p'.2 = p.2) (s.placesFired r first last opening)
      (s'.placesFired r first' last' opening') := by
  rw [Scenario.placesFired, Scenario.placesFired, h.wire_eq hE]
  cases r.wire s.events with
  | error f => exact .nil
  | ok u => exact (h.evaluateMonths hE hM hB).2

theorem books {first last first' last' : Date}
    (hM : List.Forall₂ M (Date.window first last) (Date.window first' last')) :
    Matches B (s.books r first last opening) (s'.books r first' last' opening') := by
  rw [Scenario.books, Scenario.books]
  simp only [Books.evaluateWindow_eq]
  exact h.wiredBooks hE hB hM

/-- Runs over one window, whether all of it is written or not. -/
theorem writtenBooks (hM : ∀ m, M m m) (first last : Date) :
    Matches B (s.writtenBooks r first last opening) (s'.writtenBooks r first last opening') := by
  have hsame : ∀ months : List Date, List.Forall₂ M months months := fun months =>
    List.forall₂_same.2 fun m _ => hM m
  unfold Scenario.writtenBooks
  split
  · exact (h.wiredBooks hE hB (hsame _)).bind fun _ _ _ => .stopped rfl
  · exact h.books hE hB (hsame _)

end Runs

end InStep

/-- Runs that match stop with the same fault, or return what books that go together say. -/
theorem Matches.writtenRun {r : Registry} {s s' : Scenario α} {first last first' last' : Date}
    {opening opening' : α} {B : Books α → Books α → Prop}
    (h : Matches B (s.writtenBooks r first last opening)
      (s'.writtenBooks r first' last' opening')) :
    (∀ fault, s.writtenRun r first last opening = .error fault →
      s'.writtenRun r first' last' opening' = .error fault) ∧
    ∀ run, s.writtenRun r first last opening = .ok run →
      ∃ b b', B b b' ∧ run = .ofBooks s.name opening b ∧
        s'.writtenRun r first' last' opening' = .ok (.ofBooks s'.name opening' b') := by
  unfold Scenario.writtenRun
  generalize s.writtenBooks r first last opening = x at h ⊢
  generalize s'.writtenBooks r first' last' opening' = x' at h ⊢
  cases h with
  | ended hb => exact ⟨nofun, fun run hrun => ⟨_, _, hb, (Except.ok.inj hrun).symm, rfl⟩⟩
  | stopped hfault =>
    refine ⟨fun fault hx => ?_, nofun⟩
    rw [← Except.error.inj hx]
    exact congrArg Except.error hfault

theorem Matches.yields {r : Registry} {s s' : Scenario α} {first last first' last' : Date}
    {opening opening' : α} {B : Books α → Books α → Prop}
    (h : Matches B (s.books r first last opening) (s'.books r first' last' opening')) {run : Run α}
    (hrun : s.Yields r first last opening run) :
    ∃ b b', B b b' ∧ run = .ofBooks s.name opening b ∧
      s'.Yields r first' last' opening' (.ofBooks s'.name opening' b') := by
  have hone := hrun.run_eq
  unfold Scenario.run at hone
  generalize s.books r first last opening = x at h hone
  cases hx' : s'.books r first' last' opening' with
  | error x' =>
    rw [hx'] at h
    cases h
    cases hone
  | ok b' =>
    rw [hx'] at h
    cases h with
    | @ended b _ hb =>
      have htwo : s'.run r first' last' opening' = .ok (.ofBooks s'.name opening' b') := by
        rw [Scenario.run, hx']
      exact ⟨b, b', hb, (Except.ok.inj hone).symm, htwo,
        fun hwritten => (Scenario.writtenRun_eq r s' opening' hwritten).trans htwo⟩

/-! ## Conditions that go together -/

section Conditions
variable {r : Registry} {f : Condition α → Condition α} (hkind : ∀ c, (f c).kind = c.kind)

omit [Amount α] in
include hkind in
theorem isBalanceGated_eq_of_map {e e' : Event α} (hc : e'.conditions = e.conditions.map f) :
    e'.isBalanceGated = e.isBalanceGated := by
  rw [Event.isBalanceGated, Event.isBalanceGated, hc, List.any_map]
  congr 1
  funext c
  rw [Function.comp_apply, Condition.isBalance, Condition.isBalance, hkind]

omit [Amount α] in
include hkind in
theorem defect?_eq_of_map {e e' : Event α} (hn : e'.name = e.name) (ht : e'.type = e.type)
    (hr : e'.recurrence = e.recurrence) (hc : e'.conditions = e.conditions.map f) :
    r.defect? e' = r.defect? e := by
  have hfind : e'.conditions.find? (fun c => !r.hasCondition c.kind) =
      (e.conditions.find? fun c => !r.hasCondition c.kind).map f := by
    rw [hc, List.find?_map]
    simp only [Function.comp_def, hkind]
  rw [Registry.defect?, Registry.defect?, hfind, hn, ht, hr, Option.map_map]
  simp only [Function.comp_def, hkind]

include hkind in
theorem testAll_map {m m' : Moment α} {cs : List (Condition α)}
    (hholds : ∀ c ∈ cs, (f c).holds m' = c.holds m) :
    Condition.testAll r m' (cs.map f) = Condition.testAll r m cs := by
  induction cs with
  | nil => rfl
  | cons c cs ih =>
    obtain ⟨hc, hcs⟩ := List.forall_mem_cons.1 hholds
    have htest : (f c).test r m' = c.test r m := by
      rw [Condition.test, Condition.test, hkind, hc]
    rw [List.map_cons, Condition.testAll, Condition.testAll, htest, ih hcs]

include hkind in
/-- An event is asked the same when its recurrences and its conditions are. -/
theorem shouldFire_eq_of_map {e e' : Event α} {m m' : Moment α}
    (hc : e'.conditions = e.conditions.map f) (hr : e'.recurrence = e.recurrence)
    (hopen : ∀ p : Recurrence, p.isOpen e' m' = p.isOpen e m)
    (hholds : ∀ c ∈ e.conditions, (f c).holds m' = c.holds m) :
    e'.shouldFire r m' = e.shouldFire r m := by
  have hcan : e'.canFire r m' = e.canFire r m := by
    simp only [Event.canFire, hr, hopen]
  rw [Event.shouldFire, Event.shouldFire, hcan, hc, testAll_map hkind hholds]

end Conditions

omit [Amount α] in
theorem firedIncome?_map {g : Event α → Event α} (hname : ∀ e, (g e).name = e.name)
    (hincome : ∀ e, (g e).isIncome = e.isIncome) (name : String) (fired : List (Event α)) :
    Condition.firedIncome? name (fired.map g) = (Condition.firedIncome? name fired).map g := by
  rw [Condition.firedIncome?, Condition.firedIncome?, List.find?_map]
  simp only [Function.comp_def, hname, hincome]

end Cashflow

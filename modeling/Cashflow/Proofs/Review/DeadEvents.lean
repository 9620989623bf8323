import Cashflow.Proofs.Review.Findings
import Cashflow.Proofs.Simulation.Invariant
import Cashflow.Proofs.Simulation.Outcome

/-!
# Dead events

Some findings say that an event can never fire: a yearly event without a range, or a condition that
waits for a name that no event has, or for an income of a name that no income has (`Lint.Condemns`).
The simulator agrees: such an event fires in no month of any run (`never_fires_of_condemns`).

That rests on what a run may ever see. Its history and its ledger are drawn from the events of the
scenario (`Books.DrawnFrom`), whatever the months are and even where a fault stops it
(`keptBy_drawnFrom`); so a name or an income that is not in the scenario is in neither of them.
-/

namespace Cashflow
open Lint

variable {α : Type} [Amount α] {r : Registry}

/-! ## What a run has seen -/

/-- All that has fired is among some events. -/
structure Books.DrawnFrom (own : Event α → Prop) (b : Books α) : Prop where
  history : ∀ name ∈ b.history.keys, ∃ x, own x ∧ x.name = name
  listed : ∀ t ∈ b.cashflow.values, ∀ x ∈ t.events, own x

/-- All that has fired, in the months before and in this one, is among some events. -/
structure OpenMonth.DrawnFrom (own : Event α → Prop) (o : OpenMonth α) : Prop where
  history : ∀ name ∈ o.history.keys, ∃ x, own x ∧ x.name = name
  listed : ∀ x ∈ o.entry.events, own x

namespace OpenMonth.DrawnFrom
variable {own : Event α → Prop} {o : OpenMonth α} (h : o.DrawnFrom own)
include h

theorem mono {own' : Event α → Prop} (hown : ∀ x, own x → own' x) : o.DrawnFrom own' where
  history name hname := (h.history name hname).imp fun x => And.imp_left (hown x)
  listed x hx := hown x (h.listed x hx)

theorem fire {e : Event α} (he : own e) : (o.fire e).DrawnFrom own where
  history := by
    show ∀ name ∈ (o.history.record e.name o.month.key).keys, _
    rw [History.keys_record]
    split
    · exact h.history
    · intro name hname
      rcases List.mem_append.1 hname with hname | hname
      · exact h.history name hname
      · exact ⟨e, he, (List.mem_singleton.1 hname).symm⟩
  listed := by
    intro x hx
    rcases List.mem_append.1 hx with hx | hx
    · exact h.listed x hx
    · rw [List.mem_singleton.1 hx]
      exact he

theorem refresh : o.refresh.DrawnFrom own := ⟨h.history, h.listed⟩

theorem listed_put {b : Books α} (hb : b.DrawnFrom own) :
    ∀ t ∈ (b.cashflow.put o.month.key o.entry).values, ∀ x ∈ t.events, own x := by
  intro t ht
  rcases Keyed.mem_values_put ht with rfl | ht
  · exact h.listed
  · exact hb.listed t ht

/-- An income that a condition sees is one of the events. -/
theorem exists_income {name : String} {amount : α}
    (hholds : (Condition.incomeIsAbove name amount).holds o.moment = true) :
    ∃ x, own x ∧ x.name = name ∧ x.isIncome = true := by
  unfold Condition.holds at hholds
  cases hfind : Condition.firedIncome? name o.moment.fired with
  | none => simp [hfind] at hholds
  | some x =>
    have hx : x ∈ o.entry.events := List.mem_of_find?_eq_some hfind
    have hnamed := List.find?_some hfind
    simp only [Bool.and_eq_true, decide_eq_true_eq] at hnamed
    exact ⟨x, h.listed x hx, hnamed⟩

/-- What a condition waits for is an event, once the condition holds. -/
theorem exists_awaited {c : Condition α} {name : String} (hname : name ∈ c.awaited?)
    (hholds : c.holds o.moment = true) : ∃ x, own x ∧ x.name = name := by
  cases c with
  | dateIs d => cases hname
  | dateInRange first last => cases hname
  | networthIsAbove note x => cases hname
  | eventHappened event =>
    obtain rfl : event = name := Option.some.inj hname
    exact h.history event ((Keyed.contains_iff _ _).1 hholds)
  | incomeIsAbove event amount =>
    cases hname
    obtain ⟨x, hx, hnamed, -⟩ := h.exists_income hholds
    exact ⟨x, hx, hnamed⟩

end OpenMonth.DrawnFrom

/-- If an event is one of some as soon as it fires after none but these, a run has no firing but of
these. -/
theorem keptBy_drawnFrom {events : List (Event α)} {own : Event α → Prop}
    (h : ∀ e ∈ events, ∀ o : OpenMonth α, o.DrawnFrom own →
      e.shouldFire r o.moment = .ok true → own e) :
    KeptBy r events (Books.DrawnFrom own) (OpenMonth.DrawnFrom own) (OpenMonth.DrawnFrom own) where
  opens _ _ hb := ⟨hb.history, nofun⟩
  first e he o ho hfires := ho.fire (h e (List.mem_filter.1 he).1 o ho hfires)
  shows _ ho := ho.refresh
  second e he o ho hfires := (ho.fire (h e (List.mem_filter.1 he).1 o ho hfires)).refresh
  closes _ _ hb ho := ⟨ho.history, ho.listed_put hb⟩
  interrupts _ _ hb ho := ⟨(ho.elim id id).history, (ho.elim id id).listed_put hb⟩

/-! ## Events that the linter condemns -/

/-- The linter finds that the event `e`, in the place `i`, can never fire. -/
def Lint.Condemns (events : List (Event α)) (i : Nat) (e : Event α) : Prop :=
  .yearlyWithoutRange ∈ errorsOf e ∨
  (∃ kind name, (kind = .eventHappened ∨ kind = .incomeIsAbove) ∧
    .unknownReference kind name ∈ warningsAt events i e) ∨
  ∃ name, .notAnIncome name ∈ warningsAt events i e

theorem yearlyWithoutRange_mem_iff {e : Event α} :
    .yearlyWithoutRange ∈ errorsOf e ↔
      e.recurrence = Recurrence.yearly.name ∧ e.dateRange? = none := by
  unfold errorsOf
  constructor
  · intro h
    rcases List.mem_append.1 h with h | h
    · split at h
      · rename_i hyearly
        exact ⟨hyearly.1, Option.isNone_iff_eq_none.1 hyearly.2⟩
      · cases h
    · split at h <;> simp at h
  · rintro ⟨hr, hrange⟩
    rw [if_pos ⟨hr, Option.isNone_iff_eq_none.2 hrange⟩]
    exact List.mem_append_left _ (List.mem_singleton_self _)

omit [Amount α] in
/-- Without a range there is no month of the year to fire in. -/
theorem canFire_ne_true_of_yearly {e : Event α} {m : Moment α}
    (hr : e.recurrence = Recurrence.yearly.name) (hrange : e.dateRange? = none) :
    e.canFire r m ≠ .ok true := by
  unfold Event.canFire
  cases hk : r.recurrence? e.recurrence with
  | none => rintro ⟨⟩
  | some k =>
    have hname : e.recurrence = k.name :=
      Recurrence.eq_name_of_ofName? (Option.filter_eq_some_iff.1 hk).1
    cases k with
    | once => exact absurd (hr.symm.trans hname) (by decide)
    | monthly => exact absurd (hr.symm.trans hname) (by decide)
    | yearly =>
      have hopen : Recurrence.yearly.isOpen e m = .ok false := by
        rw [Recurrence.isOpen, Recurrence.yearlyOpen, hrange]
      show (Recurrence.yearly.isOpen e m).mapError Fault.value ≠ .ok true
      rw [hopen]
      rintro ⟨⟩

theorem shouldFire_ne_true_of_condemns {events : List (Event α)} {i : Nat} {e : Event α}
    (h : Condemns events i e) {o : OpenMonth α} (ho : o.DrawnFrom (· ∈ events)) :
    e.shouldFire r o.moment ≠ .ok true := by
  intro hfires
  have hholds := holds_of_shouldFire hfires
  rcases h with hyearly | ⟨kind, name, hkind, hunknown⟩ | ⟨name, hincome⟩
  · obtain ⟨hr, hrange⟩ := yearlyWithoutRange_mem_iff.1 hyearly
    exact canFire_ne_true_of_yearly hr hrange (shouldFire_eq_true_iff.1 hfires).1
  · obtain ⟨-, hnone, c, hc, rfl, hname⟩ := unknownReference_mem_iff.1 hunknown
    have hawaited : name ∈ c.awaited? := by
      cases c <;> simp_all [Condition.kind, Condition.awaited?, reference?]
    obtain ⟨x, hx, hxname⟩ := ho.exists_awaited hawaited (hholds c hc)
    exact hnone x hx hxname
  · obtain ⟨-, -, hnone, amount, hc⟩ := notAnIncome_mem_iff.1 hincome
    obtain ⟨x, hx, hxname, hxincome⟩ := ho.exists_income (hholds _ hc)
    exact hnone x hx hxincome hxname

/-- What the linter condemns is never among what a run has seen. -/
theorem keptBy_of_condemns {events : List (Event α)} {i : Nat} {e : Event α}
    (h : Condemns events i e) :
    KeptBy r events (Books.DrawnFrom fun x => x ∈ events ∧ x ≠ e)
      (OpenMonth.DrawnFrom fun x => x ∈ events ∧ x ≠ e)
      (OpenMonth.DrawnFrom fun x => x ∈ events ∧ x ≠ e) := by
  refine keptBy_drawnFrom fun x hx o ho hfires => ⟨hx, ?_⟩
  rintro rfl
  exact shouldFire_ne_true_of_condemns h (ho.mono fun _ => And.left) hfires

/-- What is condemned by the linter, whose report lists its findings event by event, never fires:
not in any month of any run, nor before a fault that stops one. -/
theorem never_fires_of_condemns (r : Registry) (s : Scenario α) :
    s.lint.errors = (s.events.flatMap fun e => (errorsOf e).map (Issue.mk e.name)) ∧
    s.lint.warnings = (s.events.zipIdx.flatMap fun p =>
      (warningsAt s.events p.2 p.1).map (Issue.mk p.1.name)) ∧
    ∀ (i : Nat) (e : Event α), s.events[i]? = some e → Condemns s.events i e →
      ∀ opening : α,
        (∀ months fired, JustFired r s.events { balance := opening } months fired →
          e ∉ fired.entry.events) ∧
        ∀ first last : Date,
          (∀ run, s.writtenRun r first last opening = .ok run →
            ∀ t ∈ run.cashflow.values, e ∉ t.events) ∧
          ∀ x, s.writtenBooks r first last opening = .error x →
            ∀ t ∈ x.left.cashflow.values, e ∉ t.events := by
  refine ⟨rfl, warnings_lint s, fun i e _ h opening => ?_⟩
  have hkept := keptBy_of_condemns (r := r) h
  have hstart : Books.DrawnFrom (fun x => x ∈ s.events ∧ x ≠ e) { balance := opening } :=
    ⟨nofun, nofun⟩
  refine ⟨fun months fired hf hmem => ?_, fun first last => ?_⟩
  · exact ((hkept.of_justFired hstart hf).elim id id |>.listed e hmem).2 rfl
  · have hleaves := KeptBy.leaves_writtenBooks (fun _ => hkept) hstart first last
    refine ⟨fun run hrun t ht hmem => ?_, fun x hx t ht hmem => ?_⟩
    · obtain ⟨b, hb, rfl⟩ := writtenRun_eq_ok hrun
      rw [hb] at hleaves
      exact (hleaves.listed t ht e hmem).2 rfl
    · rw [hx] at hleaves
      exact (hleaves.listed t ht e hmem).2 rfl

/-- The rent that is due by the month is paid, its namesake that comes round by the year is not; nor
are there a refund for a move that no event is and a bonus on the income that the rent would be. -/
def lodger : Scenario Rat where
  name := "Lodger"
  events := [
    { name := "Rent", type := "expense", amount := 60, recurrence := "yearly" },
    { name := "Rent", type := "expense", amount := 5, recurrence := "monthly" },
    { name := "Refund", type := "income", amount := 20, recurrence := "monthly",
      conditions := [.eventHappened "Move"] },
    { name := "Bonus", type := "income", amount := 10, recurrence := "monthly",
      conditions := [.eventHappened "Rent", .incomeIsAbove "Rent" 0] }]

theorem condemns_lodger :
    Condemns lodger.events 0 lodger.events[0] ∧ Condemns lodger.events 2 lodger.events[2] ∧
      Condemns lodger.events 3 lodger.events[3] :=
  ⟨Or.inl (by decide +kernel),
    Or.inr (Or.inl ⟨.eventHappened, "Move", Or.inl rfl, by decide +kernel⟩),
    Or.inr (Or.inr ⟨"Rent", by decide +kernel⟩)⟩

theorem never_fires_of_condemns_lodger :
    ∃ run, lodger.writtenRun .full ⟨2025, 1, 1⟩ ⟨2025, 3, 31⟩ 100 = .ok run ∧
      run.balances.values = [95, 90, 85] ∧
      (Condemns lodger.events 0 lodger.events[0] ∧
        ∀ t ∈ run.cashflow.values, lodger.events[0] ∉ t.events) ∧
      (Condemns lodger.events 2 lodger.events[2] ∧
        ∀ t ∈ run.cashflow.values, lodger.events[2] ∉ t.events) ∧
      (Condemns lodger.events 3 lodger.events[3] ∧
        ∀ t ∈ run.cashflow.values, lodger.events[3] ∉ t.events) ∧
      ∃ fired, JustFired .full lodger.events { balance := 100 } [⟨2025, 1, 1⟩] fired ∧
        fired.entry.events = [lodger.events[1]] ∧ lodger.events[0] ∉ fired.entry.events := by
  have hdead := (never_fires_of_condemns .full lodger).2.2
  obtain ⟨hyearly, hunknown, hincome⟩ := condemns_lodger
  have hrun := writtenRun_of_nonneg (r := .full) (s := lodger) 100 rfl
    (show Date.HasMonth ⟨2025, 1, 1⟩ by decide) (show Date.HasMonth ⟨2025, 3, 31⟩ by decide)
    (by decide) (by decide +kernel)
  have hfired : JustFired .full lodger.events { balance := (100 : Rat) } [⟨2025, 1, 1⟩] _ :=
    ⟨[], ⟨2025, 1, 1⟩, [], _, rfl, rfl,
      Or.inl ⟨[lodger.events[0]], lodger.events[1], _, _, rfl, rfl, rfl, rfl⟩⟩
  exact ⟨_, hrun, by decide +kernel,
    ⟨hyearly, ((hdead 0 _ rfl hyearly 100).2 _ _).1 _ hrun⟩,
    ⟨hunknown, ((hdead 2 _ rfl hunknown 100).2 _ _).1 _ hrun⟩,
    ⟨hincome, ((hdead 3 _ rfl hincome 100).2 _ _).1 _ hrun⟩,
    _, hfired, rfl, (hdead 0 _ rfl hyearly 100).1 _ _ hfired⟩

end Cashflow

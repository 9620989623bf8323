import Cashflow.Document.File
import Cashflow.Proofs.Document.Written
import Cashflow.Proofs.Simulation.Outcome

/-!
# Wiring

A registry knows an event (`Registry.Knows`) if its type is one of the two and its recurrence and all
its conditions have behaviour. Wiring finds the first unknown word of a scenario, in the order of
declaration (`Registry.Misses`), before anything is evaluated. What it lets through never meets an
unknown kind: a gate or a condition of a known event has an answer, or a fault of another sort, at
every moment, whether or not the run comes to ask it. So a run ends with an unknown kind exactly if
wiring finds one (`wire_guards_dispatch`), and the scenarios of documents are always known.

The faults of a run are faults of its events (`Books.fault_of_evaluateMonths`).
-/

namespace Cashflow

namespace Registry
variable {α : Type}

/-- The registry has a gate for the word. -/
def HasGate (r : Registry) (word : String) : Prop := ∃ k ∈ r.recurrences, k.name = word

structure Knows (r : Registry) (e : Event α) : Prop where
  type : e.type ∈ eventTypes
  recurrence : r.HasGate e.recurrence
  conditions : ∀ c ∈ e.conditions, c.kind ∈ r.conditions

/-- The first unknown word of an event, and what is said of it. -/
inductive Misses (r : Registry) (e : Event α) : String → Prop where
  | type (unknown : e.type ∉ eventTypes) :
    Misses r e s!"Unknown event type '{e.type}' on '{e.name}'"
  | recurrence (type : e.type ∈ eventTypes) (unknown : ¬ r.HasGate e.recurrence) :
    Misses r e (s!"Unknown recurrence strategy: {e.recurrence}" ++ s!" (event '{e.name}')")
  | condition (type : e.type ∈ eventTypes) (recurrence : r.HasGate e.recurrence)
      {before after : List (Condition α)} {c : Condition α}
      (place : e.conditions = before ++ c :: after) (known : ∀ x ∈ before, x.kind ∈ r.conditions)
      (unknown : c.kind ∉ r.conditions) :
    Misses r e (s!"Unknown condition strategy: {c.kind.name}" ++ s!" (event '{e.name}')")

/-- The first unknown word of the events is one of the first unknown event. -/
def Refuses (r : Registry) (events : List (Event α)) (message : String) : Prop :=
  ∃ before e after, events = before ++ e :: after ∧ (∀ x ∈ before, r.Knows x) ∧ r.Misses e message

/-! ## What wiring finds -/

section Wiring
variable {r : Registry} {e : Event α}

theorem hasGate_iff {word : String} : r.HasGate word ↔ ∃ k, r.recurrence? word = some k := by
  simp only [recurrence?, Option.filter_eq_some_iff, List.contains_iff_mem]
  constructor
  · rintro ⟨k, hk, rfl⟩
    exact ⟨k, Recurrence.ofName?_name k, hk⟩
  · rintro ⟨k, hname, hk⟩
    exact ⟨k, hk, (Recurrence.eq_name_of_ofName? hname).symm⟩

theorem hasCondition_iff {k : ConditionKind} : r.hasCondition k = true ↔ k ∈ r.conditions :=
  List.contains_iff_mem

theorem misses_of_defect? {f : ConfigFault} (h : r.defect? e = some f) : r.Misses e f.message := by
  unfold defect? at h
  split at h
  · rename_i htype
    cases h
    exact .type (by simpa using htype)
  · rename_i htype
    have htype : e.type ∈ eventTypes := by simpa using htype
    split at h
    · rename_i hgate
      cases h
      refine .recurrence htype fun hknown => ?_
      obtain ⟨k, hk⟩ := hasGate_iff.1 hknown
      rw [hk] at hgate
      cases hgate
    · rename_i hgate
      have hgate : r.HasGate e.recurrence := by
        rw [Option.isNone_iff_eq_none] at hgate
        exact hasGate_iff.2 (Option.ne_none_iff_exists'.1 hgate)
      obtain ⟨c, hc, rfl⟩ := Option.map_eq_some_iff.1 h
      obtain ⟨hunknown, before, after, hplace, hknown⟩ := List.find?_eq_some_iff_append.1 hc
      refine .condition htype hgate hplace (fun x hx => ?_) fun hmem => ?_
      · have := hknown x hx
        rwa [Bool.not_not, hasCondition_iff] at this
      · rw [hasCondition_iff.2 hmem] at hunknown
        cases hunknown

theorem defect?_eq_none_iff : r.defect? e = none ↔ r.Knows e := by
  simp only [defect?_eq_none, ← hasGate_iff, hasCondition_iff]
  constructor
  · rintro ⟨htype, hgate, hconditions⟩
    exact ⟨htype, hgate, hconditions⟩
  · exact fun h => ⟨h.type, h.recurrence, h.conditions⟩

theorem wire_eq_ok_iff_knows {events : List (Event α)} :
    r.wire events = .ok () ↔ ∀ e ∈ events, r.Knows e := by
  simp only [wire_eq_ok_iff, defect?_eq_none_iff]

theorem refuses_of_wire {events : List (Event α)} {f : ConfigFault}
    (h : r.wire events = .error f) : r.Refuses events f.message := by
  unfold wire at h
  split at h
  · rename_i g hg
    cases h
    obtain ⟨before, e, after, rfl, he, hbefore⟩ := List.findSome?_eq_some_iff.1 hg
    exact ⟨before, e, after, rfl, fun x hx => defect?_eq_none_iff.1 (hbefore x hx),
      misses_of_defect? he⟩
  · cases h

theorem exists_wire_iff {events : List (Event α)} :
    (∃ f, r.wire events = .error f) ↔ ∃ e ∈ events, ¬ r.Knows e := by
  have hok : r.wire events = .ok () ↔ _ := wire_eq_ok_iff_knows
  cases hw : r.wire events with
  | ok u =>
    have hknown := hok.1 hw
    exact ⟨nofun, fun ⟨e, he, hunknown⟩ => absurd (hknown e he) hunknown⟩
  | error f =>
    rw [hw] at hok
    refine ⟨fun _ => ?_, fun _ => ⟨f, rfl⟩⟩
    by_contra hnone
    push Not at hnone
    cases hok.2 hnone

end Wiring

end Registry

/-! ## What a known event meets -/

section Dispatch
variable {α : Type} {r : Registry} {e : Event α}

theorem Registry.Knows.canFire_eq (h : r.Knows e) (m : Moment α) :
    ∃ k : Recurrence, e.canFire r m = (k.isOpen e m).mapError .value := by
  obtain ⟨k, hk⟩ := Registry.hasGate_iff.1 h.recurrence
  exact ⟨k, by rw [Event.canFire, hk]⟩

variable [Amount α]

theorem Registry.Knows.test_eq (h : r.Knows e) {c : Condition α} (hc : c ∈ e.conditions)
    (m : Moment α) : c.test r m = .ok (c.holds m) :=
  if_pos (Registry.hasCondition_iff.2 (h.conditions c hc))

/-- The faults of a known event are faults of values. -/
def Fault.IsOfValue (f : Fault) : Prop := ∃ v, f = .value v

theorem isOfValue_of_mapError {β : Type} {x : Except ValueFault β} {f : Fault}
    (h : x.mapError Fault.value = .error f) : f.IsOfValue := by
  cases x with
  | error v => exact ⟨v, (Except.error.inj h).symm⟩
  | ok b => cases h

theorem Registry.Knows.isOfValue_of_shouldFire (h : r.Knows e) {m : Moment α} {f : Fault}
    (hf : e.shouldFire r m = .error f) : f.IsOfValue := by
  obtain ⟨k, hk⟩ := h.canFire_eq m
  unfold Event.shouldFire at hf
  cases hcan : e.canFire r m with
  | error g =>
    rw [hcan] at hf
    cases hf
    exact isOfValue_of_mapError (hk.symm.trans hcan)
  | ok opened =>
    rw [hcan, ok_bind] at hf
    split at hf
    · have hhas : ∀ c ∈ e.conditions, r.hasCondition c.kind = true := fun c hc =>
        Registry.hasCondition_iff.2 (h.conditions c hc)
      rw [Condition.testAll_eq_all hhas] at hf
      cases hf
    · cases hf

end Dispatch

/-! ## Faults of a run -/

section Faults
variable {α : Type} [Amount α] {r : Registry} {P : Fault → Prop} {events : List (Event α)}

theorem OpenMonth.fault_of_pass {apply : OpenMonth α → Event α → OpenMonth α}
    (h : ∀ e ∈ events, ∀ m f, e.shouldFire r m = .error f → P f) {o : OpenMonth α}
    {x : Halted (OpenMonth α)} (hx : pass r apply events o = .error x) : P x.fault := by
  induction events generalizing o with
  | nil => cases hx
  | cons e es ih =>
    obtain ⟨hhead, htail⟩ := List.forall_mem_cons.1 h
    unfold pass at hx
    split at hx
    · rename_i f hf
      cases hx
      exact hhead _ f hf
    · exact ih htail hx
    · exact ih htail hx

theorem Books.fault_of_evaluateMonth (h : ∀ e ∈ events, ∀ m f, e.shouldFire r m = .error f → P f)
    {b : Books α} {month : Date} {x : Halted (Books α)}
    (hx : b.evaluateMonth r (passes events).1 (passes events).2 month = .error x) : P x.fault := by
  unfold Books.evaluateMonth at hx
  split at hx
  · cases hx
  · rename_i y hy
    cases hx
    unfold OpenMonth.evaluate at hy
    cases hfirst : (b.openMonth month).firstPass r (passes events).1 with
    | error z =>
      rw [hfirst] at hy
      cases hy
      exact OpenMonth.fault_of_pass (fun e he => h e (List.mem_of_mem_filter he)) hfirst
    | ok o =>
      rw [hfirst, ok_bind] at hy
      exact OpenMonth.fault_of_pass (fun e he => h e (List.mem_of_mem_filter he)) hy

theorem Books.fault_of_evaluateMonths (h : ∀ e ∈ events, ∀ m f, e.shouldFire r m = .error f → P f)
    {b : Books α} {months : List Date} {x : Halted (Books α)}
    (hx : b.evaluateMonths r events months = .error x) : P x.fault := by
  unfold Books.evaluateMonths at hx
  induction months generalizing b with
  | nil => cases hx
  | cons month months ih =>
    rw [List.foldlM_cons] at hx
    cases hb : b.evaluateMonth r (passes events).1 (passes events).2 month with
    | error y =>
      rw [hb] at hx
      cases hx
      exact Books.fault_of_evaluateMonth h hb
    | ok b' =>
      rw [hb, ok_bind] at hx
      exact ih hx

theorem isOfValue_of_wired {s : Scenario α} (hw : r.wire s.events = .ok ()) {first last : Date}
    {opening : α} {x : Halted (Books α)} (hx : s.writtenBooks r first last opening = .error x) :
    x.fault.IsOfValue := by
  have hknown := Registry.wire_eq_ok_iff_knows.1 hw
  have hmonths : ∀ (b : Books α) (months : List Date) (y : Halted (Books α)),
      b.evaluateMonths r s.events months = .error y → y.fault.IsOfValue := fun b months y =>
    Books.fault_of_evaluateMonths fun e he m f => (hknown e he).isOfValue_of_shouldFire
  unfold Scenario.writtenBooks Scenario.books Scenario.wiredBooks at hx
  simp only [hw, Books.evaluateWindow_eq] at hx
  split at hx
  · generalize hy : Books.evaluateMonths r s.events _ _ = y at hx
    cases y with
    | ok b =>
      cases hx
      exact ⟨_, rfl⟩
    | error y =>
      cases hx
      exact hmonths _ _ _ hy
  · exact hmonths _ _ _ hx

end Faults

namespace Document

theorem isLoadable_of_ofEntries {source : String} {entries : List (String × Value)} {doc : Document}
    (h : ofEntries source entries = .ok doc) : doc.scenario.IsLoadable := by
  unfold ofEntries at h
  split at h
  · rename_i s d hparts
    cases h
    have hmemory : ofMapping entries = .ok ⟨s, d, mappingSource⟩ := by
      rw [ofMapping, ofEntries, hparts]
    exact (isLoadable_of_ofMapping hmemory :)
  · cases h

theorem ofEntries_of_ofEntriesWithin {limit : Nat} {source : String}
    {entries : List (String × Value)} {doc : Document}
    (h : ofEntriesWithin limit source entries = .ok doc) : ofEntries source entries = .ok doc := by
  unfold ofEntriesWithin at h
  split at h
  · split at h
    · exact h
    · split at h <;> cases h
  · exact h

/-- A document comes from a mapping in memory or from a file. -/
def IsLoaded (doc : Document) : Prop :=
  (∃ limit entries, ofMappingWithin limit entries = .ok doc) ∨
    ∃ depths path format content, ofFile depths path format content = .ok doc

theorem IsLoaded.isLoadable {doc : Document} (h : doc.IsLoaded) : doc.scenario.IsLoadable := by
  rcases h with ⟨limit, entries, h⟩ | ⟨depths, path, format, content, h⟩
  · unfold ofMappingWithin at h
    split at h
    · cases h
    · exact isLoadable_of_ofMapping h
  · unfold ofFile at h
    dsimp only at h
    split at h
    · cases h
    · cases h
    · cases h
    · split at h
      · cases h
      · exact isLoadable_of_ofEntries (ofEntries_of_ofEntriesWithin h)
      · cases h

end Document

theorem Scenario.IsLoadable.knows {s : Scenario Float} (h : s.IsLoadable) :
    ∀ e ∈ s.events, Registry.full.Knows e := by
  intro e he
  obtain ⟨k, hk, hname⟩ := List.mem_map.1 (h.events e he).recurrence
  refine ⟨(h.events e he).type, ⟨k, hk, hname⟩, fun c _ => ?_⟩
  exact Registry.hasCondition_iff.1 (Registry.hasCondition_full c.kind)

section Runs
variable {α : Type} [Amount α] {r : Registry} {s : Scenario α} {f : ConfigFault}

theorem wire_of_writtenBooks {first last : Date} {opening : α} {left : Books α}
    (h : s.writtenBooks r first last opening = .error ⟨.config f, left⟩) :
    r.wire s.events = .error f ∧ left = { balance := opening } := by
  cases hw : r.wire s.events with
  | error g =>
    rw [writtenBooks_of_unwired hw] at h
    cases h
    exact ⟨rfl, rfl⟩
  | ok u =>
    obtain ⟨v, hv⟩ := isOfValue_of_wired hw h
    cases hv

theorem wire_of_runBetween {first last : Value} {opening : α}
    (h : s.runBetween r first last opening = .error (.config f)) : r.wire s.events = .error f := by
  unfold Scenario.runBetween at h
  cases hw : r.wire s.events with
  | error g =>
    rw [hw] at h
    cases h
    rfl
  | ok u =>
    rw [hw, ok_mapError, ok_bind] at h
    cases hfirst : Date.coerce first with
    | error v =>
      rw [hfirst] at h
      cases h
    | ok first =>
      rw [hfirst, ok_mapError, ok_bind] at h
      cases hlast : Date.coerce last with
      | error v =>
        rw [hlast] at h
        cases h
      | ok last =>
        rw [hlast, ok_mapError, ok_bind, Scenario.writtenRun] at h
        split at h
        · cases h
        · rename_i x hx
          obtain ⟨v, hv⟩ := isOfValue_of_wired hw hx
          rw [hv] at h
          cases h

end Runs

/-- A run meets an unknown kind exactly if its scenario has an unknown event. Then it has evaluated
nothing, and it says what the first unknown word is. Otherwise no gate and no condition that the run
may ask has an unknown kind, at whatever moment. Scenarios of documents are known. -/
theorem wire_guards_dispatch {α : Type} [Amount α] :
    (∀ (r : Registry) (s : Scenario α) (opening : α),
      (∀ first last : Date,
        ((∃ f left, s.writtenBooks r first last opening = .error ⟨.config f, left⟩) ↔
          ∃ e ∈ s.events, ¬ r.Knows e) ∧
        ∀ f left, s.writtenBooks r first last opening = .error ⟨.config f, left⟩ →
          left = { balance := opening } ∧ r.Refuses s.events f.message) ∧
      (∀ first last : Value,
        ((∃ f, s.runBetween r first last opening = .error (.config f)) ↔
          ∃ e ∈ s.events, ¬ r.Knows e) ∧
        ∀ f, s.runBetween r first last opening = .error (.config f) →
          r.Refuses s.events f.message) ∧
      ((∀ e ∈ s.events, r.Knows e) → ∀ e ∈ s.events, ∀ (m : Moment α) (f : ConfigFault),
        e.canFire r m ≠ .error (.config f) ∧
          ∀ c ∈ e.conditions, c.test r m ≠ .error (.config f))) ∧
    ∀ (doc : Document) (first last : Value) (opening : Float) (f : ConfigFault), doc.IsLoaded →
      doc.scenario.runBetween .full first last opening ≠ .error (.config f) := by
  refine ⟨fun r s opening => ⟨fun first last => ⟨?_, ?_⟩, fun first last => ⟨?_, ?_⟩, ?_⟩, ?_⟩
  · rw [← Registry.exists_wire_iff]
    constructor
    · rintro ⟨f, left, h⟩
      exact ⟨f, (wire_of_writtenBooks h).1⟩
    · rintro ⟨f, hw⟩
      exact ⟨f, _, writtenBooks_of_unwired hw first last opening⟩
  · intro f left h
    obtain ⟨hw, hleft⟩ := wire_of_writtenBooks h
    exact ⟨hleft, Registry.refuses_of_wire hw⟩
  · rw [← Registry.exists_wire_iff]
    constructor
    · rintro ⟨f, h⟩
      exact ⟨f, wire_of_runBetween h⟩
    · rintro ⟨f, hw⟩
      refine ⟨f, ?_⟩
      rw [Scenario.runBetween, hw]
      rfl
  · intro f h
    exact Registry.refuses_of_wire (wire_of_runBetween h)
  · intro hknown e he m f
    constructor
    · intro hcan
      obtain ⟨k, hk⟩ := (hknown e he).canFire_eq m
      obtain ⟨v, hv⟩ := isOfValue_of_mapError (hk.symm.trans hcan)
      cases hv
    · intro c hc htest
      rw [(hknown e he).test_eq hc m] at htest
      cases htest
  · intro doc first last opening f hdoc h
    have hw := wire_of_runBetween h
    rw [Registry.wire_eq_ok_iff_knows.2 hdoc.isLoadable.knows] at hw
    cases hw

/-- No recurrence by the year and no look at balances. -/
def sparse : Registry := Registry.full.without ["yearly", "networth-is-above"]

/-- The car is refused for its condition, before the bonus, which comes round yearly. A payslip is
known, and so is every document that loads. -/
theorem wire_guards_dispatch_sparse :
    let payslip : Event Rat := ⟨"Salary", "income", 250, "monthly", [.eventHappened "Car"], none⟩
    household.writtenBooks sparse ⟨2025, 1, 15⟩ ⟨2025, 3, 2⟩ 5 =
        .error ⟨.config (.condition "networth-is-above" (some "Car")), { balance := 5 }⟩ ∧
      sparse.Refuses household.events
        "Unknown condition strategy: networth-is-above (event 'Car')" ∧
      (∀ (m : Moment Rat) (f : ConfigFault), payslip.canFire sparse m ≠ .error (.config f)) ∧
      Document.mixedDocument.IsLoaded ∧
      ∀ (first last : Value) (opening : Float) (f : ConfigFault),
        Document.mixedDocument.scenario.runBetween .full first last opening ≠ .error (.config f) := by
  intro payslip
  have hrefused : household.writtenBooks sparse ⟨2025, 1, 15⟩ ⟨2025, 3, 2⟩ 5 =
      .error ⟨.config (.condition "networth-is-above" (some "Car")), { balance := 5 }⟩ :=
    writtenBooks_of_unwired rfl _ _ _
  have hpayslip : ∀ e ∈ [payslip], sparse.Knows e := Registry.wire_eq_ok_iff_knows.1 rfl
  have hloaded : Document.mixedDocument.IsLoaded :=
    Or.inl ⟨100, Document.mixedPlan, rfl⟩
  refine ⟨hrefused, ?_, fun m f => ?_, hloaded, fun first last opening f => ?_⟩
  · exact ((wire_guards_dispatch.1 sparse household 5).1 _ _).2 _ _ hrefused |>.2
  · exact ((wire_guards_dispatch.1 sparse ⟨"Pay", [payslip]⟩ 0).2.2 hpayslip _
      List.mem_cons_self m f).1
  · exact (wire_guards_dispatch (α := Rat)).2 _ first last opening f hloaded

end Cashflow

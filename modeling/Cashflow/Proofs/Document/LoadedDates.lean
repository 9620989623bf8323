import Cashflow.Proofs.Calendar.DateText
import Cashflow.Proofs.Document.Agreement
import Cashflow.Proofs.Document.Written

/-!
# Where loaded dates come from

A document gives dates in up to seven places: its own start and end, the payloads of conditions and
the fields of shorthands. `writtenDates` lists the values there, `Document.dates` the dates of what was
loaded, and the two lists go together date by date (`spells_ofMapping`): nothing is mended on the way.

So a date is as good as its spelling. A text is read with a month of the calendar and a day that is
not below zero; beyond that no reader judges days, and a loaded date need not be one of the calendar
(`exists_day_off_calendar`).
-/

namespace Cashflow

/-! ## The dates of a document -/

def Condition.dates {α : Type} : Condition α → List Date
  | .dateIs d => [d]
  | .dateInRange first last => first :: last.toList
  | .networthIsAbove _ _ | .eventHappened _ | .incomeIsAbove _ _ => []

theorem Condition.dates_of_isBalance {α : Type} {c : Condition α} (h : c.isBalance = true) :
    c.dates = [] := by
  cases c with
  | dateIs d => cases h
  | dateInRange first last => cases h
  | _ => rfl

theorem Condition.kind_of_ofPayload {k : ConditionKind} {v : Value} {c : Condition Float}
    (h : ofPayload k v = .ok c) : c.kind = k := by
  cases k <;> simp only [ofPayload, bind_eq_ok, pure_eq_ok] at h
  · obtain ⟨d, -, rfl⟩ := h
    rfl
  · obtain ⟨stop, -, start, -, first, -, last, -, rfl⟩ := h
    rfl
  · obtain ⟨found, -, event, -, item, -, amount, -, rfl⟩ := h
    rfl
  · obtain ⟨item, -, event, -, rfl⟩ := h
    rfl
  · obtain ⟨found, -, event, -, item, -, amount, -, rfl⟩ := h
    rfl

def Event.dates {α : Type} (e : Event α) : List Date := e.conditions.flatMap Condition.dates

namespace Document

/-- The defaults for a run first, then event by event and condition by condition. -/
def dates (doc : Document) : List Date :=
  doc.defaults.first.toList ++
    (doc.defaults.last.toList ++ doc.scenario.events.flatMap Event.dates)

/-! ## The values that are read as dates -/

/-- The value of a date that may be left out. -/
def ifAny : Value → List Value
  | .null => []
  | v => [v]

def rangeDates (entries : List (String × Value)) : List Value :=
  fieldOf entries "start" :: ifAny (fieldOf entries "end")

def conditionDates (v : Value) : List Value :=
  match Condition.kindOf? (fieldOf v.entries "type") with
  | some .dateIs => [fieldOf v.entries "value"]
  | some .dateInRange => rangeDates (fieldOf v.entries "value").entries
  | _ => []

/-- The dates of a shorthand. -/
def kindDates (entries : List (String × Value)) : List Value :=
  match fieldOf entries "kind" with
  | .text "one-off" => [fieldOf entries "date"]
  | .text "recurring" => rangeDates entries
  | _ => []

def eventDates (v : Value) : List Value :=
  (fieldOf v.entries "unlockedBy").items.flatMap conditionDates ++ kindDates v.entries

/-- In the order of `Document.dates`. -/
def writtenDates (entries : List (String × Value)) : List Value :=
  ifAny (fieldOf entries "start") ++
    (ifAny (fieldOf entries "end") ++ (fieldOf entries "events").items.flatMap eventDates)

/-! ## Each is read as it is written -/

theorem spells_ifAny {v : Value} {o : Option Date} (h : SpellsIfAny v o) :
    List.Forall₂ Spells (ifAny v) o.toList := by
  rcases h with ⟨rfl, rfl⟩ | ⟨d, hd, rfl⟩
  · exact .nil
  · have hv : ifAny v = [v] := by cases hd <;> rfl
    rw [hv]
    exact .cons hd .nil

theorem spells_of_ofValue {v : Value} {d : Date} (h : Date.ofValue v = .ok d) : Spells v d := by
  obtain ⟨y, hy, -⟩ := bind_eq_ok.1 h
  obtain ⟨hv, -⟩ := item_eq_ok hy
  rw [hv] at h ⊢
  exact .parts h

theorem spellsIfAny_of_lastOfValue {v : Value} {o : Option Date}
    (h : Condition.lastOfValue v = .ok o) : SpellsIfAny v o := by
  unfold Condition.lastOfValue at h
  split at h
  · cases h
    exact spellsIfAny_none.2 rfl
  · obtain ⟨d, hd, h⟩ := bind_eq_ok.1 (show (Date.ofValue v >>= fun d => .ok (some d)) = _ from h)
    cases h
    exact spellsIfAny_some.2 (spells_of_ofValue hd)

theorem Respelled.spells {v w : Value} {d : Date} (h : Respelled v w) (hw : Spells w d) :
    Spells v d := by
  rcases h with ⟨-, rfl⟩ | ⟨-, e, he, rfl⟩
  · exact hw
  · cases hw with
    | parts h =>
      cases h
      exact he

theorem Respelled.spellsIfAny {v w : Value} {o : Option Date} (h : Respelled v w)
    (hw : SpellsIfAny w o) : SpellsIfAny v o := by
  rcases hw with ⟨rfl, rfl⟩ | ⟨d, hd, rfl⟩
  · rcases h with ⟨-, hv⟩ | ⟨-, e, -, he⟩
    · exact spellsIfAny_none.2 hv.symm
    · cases he
  · exact spellsIfAny_some.2 (h.spells hd)

/-- A payload that has items is what it was taken for. -/
theorem payload_eq_of_item {k : String} {v w : Value} (h : (Condition.payload v).item k = .ok w) :
    Condition.payload v = v := by
  unfold Condition.payload at h ⊢
  split
  · rfl
  · rename_i hv
    rw [if_neg hv] at h
    cases h

theorem eq_dateIs_of_parted {v w : Value} {c : Condition Float} (h : Parted v w)
    (hw : Condition.ofPayload .dateIs (Condition.payload w) = .ok c) :
    ∃ d, c = .dateIs d ∧ Spells v d := by
  obtain ⟨d, hd, hc⟩ := bind_eq_ok.1 hw
  refine ⟨d, (pure_eq_ok.1 hc).symm, ?_⟩
  obtain ⟨y, hy, -⟩ := bind_eq_ok.1 hd
  rw [payload_eq_of_item hy] at hd
  cases h with
  | value _ h => exact h.spells (spells_of_ofValue hd)
  | mapping _ _ rest =>
    rw [Date.ofValue_eq_of_rest rest] at hd
    exact .parts hd

theorem eq_dateInRange_of_parted {v w : Value} {c : Condition Float} (h : Parted v w)
    (hw : Condition.ofPayload .dateInRange (Condition.payload w) = .ok c) :
    ∃ first last, c = .dateInRange first last ∧
      Spells (fieldOf v.entries "start") first ∧ SpellsIfAny (fieldOf v.entries "end") last := by
  obtain ⟨stop, hstop, hw⟩ := bind_eq_ok.1 hw
  obtain ⟨start, hstart, hw⟩ := bind_eq_ok.1 hw
  obtain ⟨first, hfirst, hw⟩ := bind_eq_ok.1 hw
  obtain ⟨last, hlast, hc⟩ := bind_eq_ok.1 hw
  refine ⟨first, last, (pure_eq_ok.1 hc).symm, ?_⟩
  rw [payload_eq_of_item hstart] at hstop hstart
  obtain ⟨hmapping, rfl⟩ := item_eq_ok hstart
  rw [hmapping] at hstop
  cases hstop
  have hfirst := spells_of_ofValue hfirst
  have hlast := spellsIfAny_of_lastOfValue hlast
  cases h with
  | mapping hfirst' hlast' _ => exact ⟨hfirst'.spells hfirst, hlast'.spellsIfAny hlast⟩
  | value _ h =>
    rcases h with ⟨-, rfl⟩ | ⟨-, e, -, rfl⟩
    · exact ⟨hfirst, hlast⟩
    · -- The parts of a date are no range.
      cases hfirst

/-- A condition is read from what taking its dates apart makes of its payload; its kind stays. -/
theorem exists_parted_of_condition {j : Nat} {entries : List (String × Value)}
    {c : Condition Float} (h : condition j (.mapping entries) = .ok c) :
    ∃ k, Condition.kindOf? (fieldOf entries "type") = some k ∧
      ∃ w, Parted (fieldOf entries "value") w ∧
        Condition.ofPayload k (Condition.payload w) = .ok c := by
  obtain ⟨before, after, hbefore, hparts, hread⟩ := condition_eq_ok.1 h
  cases hbefore
  obtain ⟨hvalue, hrest⟩ := withParts_eq_ok hparts
  obtain ⟨k, hk, -, hpayload⟩ := Condition.ofValue_eq_ok.1 hread
  rw [fieldOf, hrest "type" (by decide)] at hk
  exact ⟨k, hk, _, hvalue, hpayload⟩

theorem spells_condition {v : Value} {c : Condition Float} (h : ∃ j, condition j v = .ok c) :
    List.Forall₂ Spells (conditionDates v) c.dates := by
  obtain ⟨j, h⟩ := h
  obtain ⟨entries, -, rfl, -, -⟩ := condition_eq_ok.1 h
  obtain ⟨k, hk, w, hvalue, hpayload⟩ := exists_parted_of_condition h
  rw [conditionDates, Value.entries, hk]
  cases k with
  | dateIs =>
    obtain ⟨d, rfl, hd⟩ := eq_dateIs_of_parted hvalue hpayload
    exact .cons hd .nil
  | dateInRange =>
    obtain ⟨first, last, rfl, hfirst, hlast⟩ := eq_dateInRange_of_parted hvalue hpayload
    exact .cons hfirst (spells_ifAny hlast)
  | _ =>
    have hbalance : c.isBalance = true := by
      rw [Condition.isBalance, Condition.kind_of_ofPayload hpayload]
      rfl
    rw [Condition.dates_of_isBalance hbalance]
    exact .nil

theorem spells_conditions {v : Value} {cs : List (Condition Float)} (h : conditions v = .ok cs) :
    List.Forall₂ Spells (v.items.flatMap conditionDates) (cs.flatMap Condition.dates) := by
  obtain ⟨items, hitems, h⟩ := bind_eq_ok.1 h
  rw [items_of_list hitems]
  exact List.rel_flatMap (conditionsFrom_eq_ok h) fun _ _ => spells_condition

/-- The condition that a shorthand adds has the dates of its own fields. -/
theorem spells_ofKind {h : EventHead} {entries : List (String × Value)} {e : Event Float}
    (he : ofKind h entries (fieldOf entries "kind") = .ok e) :
    ∃ added, e.conditions = h.conditions ++ added ∧
      List.Forall₂ Spells (kindDates entries) (added.flatMap Condition.dates) := by
  rcases ofKind_eq_ok.1 he with ⟨hk, he⟩ | ⟨hk, he⟩ | ⟨hk, he⟩
  · obtain ⟨d, hd, rfl⟩ := oneOffEvent_eq_ok.1 he
    refine ⟨[.dateIs d], rfl, ?_⟩
    rw [kindDates, hk]
    exact .cons hd .nil
  · obtain ⟨first, last, r, hfirst, hlast, -, -, rfl⟩ := recurringEvent_eq_ok.1 he
    refine ⟨[.dateInRange first last], rfl, ?_⟩
    rw [kindDates, hk, List.flatMap_singleton]
    exact .cons hfirst (spells_ifAny hlast)
  · obtain ⟨-, rfl⟩ := gatedEvent_eq_ok.1 he
    refine ⟨[], (List.append_nil _).symm, ?_⟩
    rw [kindDates, hk]
    exact .nil

theorem spells_event {v : Value} {e : Event Float} (h : event v = .ok e) :
    List.Forall₂ Spells (eventDates v) e.dates := by
  obtain ⟨entries, head, rfl, hhead, he⟩ := event_eq_ok.1 h
  obtain ⟨-, -, -, hconditions, -⟩ := eventHead_eq_ok.1 hhead
  have hlisted := spells_conditions hconditions
  rcases he with ⟨hk, he⟩ | ⟨-, he⟩
  · obtain ⟨r, -, -, rfl⟩ := fullEvent_eq_ok.1 he
    have hnone : kindDates entries = [] := by rw [kindDates, hk]
    rw [eventDates, Value.entries, hnone, List.append_nil]
    exact hlisted
  · obtain ⟨added, hadded, hdates⟩ := spells_ofKind he
    rw [Event.dates, hadded, List.flatMap_append]
    exact List.rel_append hlisted hdates

theorem spells_ofMapping {entries : List (String × Value)} {doc : Document}
    (h : ofMapping entries = .ok doc) :
    List.Forall₂ Spells (writtenDates entries) doc.dates := by
  obtain ⟨-, -, hdefaults, items, hitems, hevents⟩ := ofMapping_eq_ok.1 h
  obtain ⟨hfirst, hlast, -⟩ := runDefaults_eq_ok.1 hdefaults
  rw [writtenDates, dates, items_of_list hitems]
  refine List.rel_append (spells_ifAny hfirst) (List.rel_append (spells_ifAny hlast) ?_)
  exact List.rel_flatMap hevents fun _ _ => spells_event

/-! ## How good they are -/

theorem hasMonth_of_spells {s : String} {d : Date} (h : Spells (.text s) d) :
    d.HasMonth ∧ 0 ≤ d.day := by
  cases h with
  | text h =>
    have hplain := Date.isPlain_of_parse h
    exact ⟨hplain.month, hplain.day⟩

/-- Every date of a loaded document is the one that is written in its place, and one that is written
as a text lies in a month of the calendar, on a day that is not below zero. -/
theorem writtenDates_spell_dates {entries : List (String × Value)} {doc : Document}
    (h : ofMapping entries = .ok doc) :
    List.Forall₂ (fun v d => Spells v d ∧ ((∃ s, v = .text s) → d.HasMonth ∧ 0 ≤ d.day))
      (writtenDates entries) doc.dates := by
  refine (spells_ofMapping h).imp fun v d hd => ⟨hd, ?_⟩
  rintro ⟨s, rfl⟩
  exact hasMonth_of_spells hd

theorem writtenDates_spell_dates_mixedPlan :
    ofMapping mixedPlan = .ok mixedDocument ∧
      mixedDocument.dates = [⟨2025, 1, 1⟩, ⟨2025, 1, 15⟩, ⟨2026, 4, 1⟩, ⟨2026, 4, 1⟩] ∧
      List.Forall₂ (fun v d => Spells v d ∧ ((∃ s, v = .text s) → d.HasMonth ∧ 0 ≤ d.day))
        (writtenDates mixedPlan) mixedDocument.dates :=
  ⟨rfl, rfl, writtenDates_spell_dates (show ofMapping mixedPlan = .ok mixedDocument from rfl)⟩

/-- A plan from the ninety-ninth of January on. -/
def lateDay : List (String × Value) :=
  [("name", .text "Plan"), ("start", .text "2025-01-99"), ("events", .list [])]

theorem exists_day_off_calendar :
    ¬ ∀ (entries : List (String × Value)) (doc : Document), ofMapping entries = .ok doc →
      ∀ d ∈ doc.dates, d.HasMonth ∧ 1 ≤ d.day ∧ d.day ≤ 31 := by
  intro hall
  have hload : ofMapping lateDay =
      .ok ⟨⟨"Plan", []⟩, { first := some ⟨2025, 1, 99⟩ }, mappingSource⟩ := rfl
  have hday := (hall lateDay _ hload ⟨2025, 1, 99⟩ (List.mem_singleton.2 rfl)).2.2
  exact absurd hday (by decide)

end Document

end Cashflow

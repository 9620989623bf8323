import Cashflow.Proofs.Document.Reading
import Cashflow.Proofs.Scenario.Sameness

/-!
# Two readers of one document

A document of full events with the dates of its conditions in parts is read by `Document.ofMapping`,
which judges it, and by `Scenario.ofValue`, which does not. What the first accepts the second reads as
the same scenario, unless an event has a null for its conditions, which only the first takes for none
(`ofValue_of_ofMapping`).

* `Condition.ofValue_eq_ok` : the fields that a condition is read from;
* `ofValue_of_condition` : without spelled dates, both read a condition alike;
* `ofValue_eq_of_event`, `mapM_ofValue_of_events` : the same for an event and for all events.
-/

namespace Cashflow
open Document

/-- A date is read from its parts alone; a payload may differ in the ends of a range. -/
theorem Date.ofValue_eq_of_rest {p q : List (String × Value)}
    (rest : ∀ k, k ≠ "start" → k ≠ "end" → Value.lookup k q = Value.lookup k p) :
    Date.ofValue (.mapping q) = Date.ofValue (.mapping p) := by
  simp only [Date.ofValue, Value.item, Value.field?, rest "y" (by decide) (by decide),
    rest "m" (by decide) (by decide), rest "d" (by decide) (by decide)]

/-! ## Conditions -/

namespace Condition

theorem payload_mapping (l : List (String × Value)) : payload (.mapping l) = .mapping l := by
  cases l <;> rfl

theorem hashed_of_kindOf? {v : Value} {k : ConditionKind} (h : kindOf? v = some k) :
    v.hashed = .ok v := by
  cases v with
  | text s => rfl
  | _ => cases h

theorem ofValue_eq_ok {l : List (String × Value)} {c : Condition Float} :
    ofValue (.mapping l) = .ok c ↔ ∃ k, kindOf? (fieldOf l "type") = some k ∧
      ((Value.lookup "tag" l).getD (.text k.tag.name)).text? = some k.tag.name ∧
      ofPayload k (payload (fieldOf l "value")) = .ok c := by
  constructor
  · intro h
    obtain ⟨type, htype, h⟩ := bind_eq_ok.1 h
    cases htype
    obtain ⟨key, hkey, h⟩ := bind_eq_ok.1 h
    have hkey : (fieldOf l "type").hashed = .ok key := mapError_eq_ok.1 hkey
    split at h
    · obtain ⟨_, -, h⟩ := bind_eq_ok.1 h
      cases h
    · rename_i k hk
      have hsame : fieldOf l "type" = key := by
        unfold Value.hashed at hkey
        split at hkey
        · cases hkey
        · cases hkey
        · exact Except.ok.inj hkey
      obtain ⟨tag, htag, h⟩ := bind_eq_ok.1 h
      cases htag
      dsimp only at h
      split at h
      · rename_i htag
        exact ⟨k, by rw [hsame, hk], htag, mapError_eq_ok.1 h⟩
      · obtain ⟨_, -, h⟩ := bind_eq_ok.1 h
        cases h
  · rintro ⟨k, hk, htag, h⟩
    have hhashed := hashed_of_kindOf? hk
    unfold ofValue
    show (ofValueFault (fieldOf l "type").hashed >>= fun key => _) = _
    rw [hhashed]
    simp only [ofValueFault, ok_mapError, ok_bind, hk]
    show (if ((Value.lookup "tag" l).getD (.text k.tag.name)).text? = some k.tag.name then
      ofValueFault (ofPayload k (payload (fieldOf l "value"))) else _) = _
    rw [if_pos htag, h]
    rfl

/-- Whether the payload of a condition of the kind `k` spells a date in place of its parts. -/
def payloadSpellsDate (k : ConditionKind) (v : Value) : Bool :=
  match k with
  | .dateIs => spellsDate v
  | .dateInRange => spellsDate (fieldOf v.entries "start") || spellsDate (fieldOf v.entries "end")
  | .networthIsAbove | .eventHappened | .incomeIsAbove => false

/-- Whether a condition spells one of its dates. -/
def spellsOwnDate (v : Value) : Bool :=
  (kindOf? (fieldOf v.entries "type")).any fun k => payloadSpellsDate k (fieldOf v.entries "value")

theorem eq_of_respelled {v w : Value} (h : Respelled v w) (hv : spellsDate v = false) : w = v := by
  rcases h with ⟨-, rfl⟩ | ⟨hs, -⟩
  · rfl
  · exact absurd (hs.symm.trans hv) (by decide)

/-- The payload of a range is read from its two fields. -/
theorem ofPayload_dateInRange_congr {p q : List (String × Value)} {c : Condition Float}
    (hfirst : fieldOf q "start" = fieldOf p "start") (hlast : fieldOf q "end" = fieldOf p "end")
    (h : ofPayload .dateInRange (.mapping q) = .ok c) :
    ofPayload .dateInRange (.mapping p) = .ok c := by
  obtain ⟨last, hend, h⟩ := bind_eq_ok.1 h
  obtain ⟨start, hstart, h⟩ := bind_eq_ok.1 h
  obtain ⟨first, hdate, h⟩ := bind_eq_ok.1 h
  have hnull : start ≠ .null := by
    rintro rfl
    cases hdate
  have hp : fieldOf p "start" = start := by rw [← hfirst, (item_eq_ok hstart).2]; rfl
  have hend' : (Value.mapping p).fieldOrNull "end" = .ok last := by
    rw [← hend]
    exact congrArg Except.ok hlast.symm
  exact bind_eq_ok.2 ⟨last, hend', bind_eq_ok.2 ⟨start, item_of_fieldOf hp hnull,
    bind_eq_ok.2 ⟨first, hdate, h⟩⟩⟩

theorem ofPayload_of_parted {k : ConditionKind} {v w : Value} {c : Condition Float}
    (h : Parted v w) (hdates : payloadSpellsDate k v = false)
    (hw : ofPayload k (payload w) = .ok c) : ofPayload k (payload v) = .ok c := by
  cases h with
  | value _ h =>
    rcases h with ⟨-, rfl⟩ | ⟨hs, d, -, rfl⟩
    · exact hw
    · -- A condition with a spelled payload is on a date, since the parts of one serve no other kind.
      cases k with
      | dateIs => exact absurd (hs.symm.trans hdates) (by decide)
      | _ => cases hw
  | @mapping p q first last rest =>
    rw [payload_mapping] at hw ⊢
    cases k with
    | dateIs =>
      rwa [ofPayload, Date.ofValue_eq_of_rest rest] at hw
    | dateInRange =>
      obtain ⟨hstart, hend⟩ := Bool.or_eq_false_iff.1 hdates
      exact ofPayload_dateInRange_congr (eq_of_respelled first hstart) (eq_of_respelled last hend) hw
    | networthIsAbove =>
      simpa only [ofPayload, Value.item, Value.field?, rest "eventRef" (by decide) (by decide),
        rest "amount" (by decide) (by decide)] using hw
    | eventHappened =>
      simpa only [ofPayload, Value.item, rest "eventName" (by decide) (by decide)] using hw
    | incomeIsAbove =>
      simpa only [ofPayload, Value.item, rest "eventName" (by decide) (by decide),
        rest "amount" (by decide) (by decide)] using hw

/-- A condition that the loader reads from parts alone, it reads as it stands. -/
theorem ofValue_of_condition {j : Nat} {v : Value} {c : Condition Float}
    (h : condition j v = .ok c) (hdates : spellsOwnDate v = false) : ofValue v = .ok c := by
  obtain ⟨before, after, rfl, hparts, hread⟩ := condition_eq_ok.1 h
  obtain ⟨hvalue, hrest⟩ := withParts_eq_ok hparts
  obtain ⟨k, hk, htag, hpayload⟩ := ofValue_eq_ok.1 hread
  have htype : fieldOf before "type" = fieldOf after "type" := by
    rw [fieldOf, fieldOf, hrest "type" (by decide)]
  rw [hrest "tag" (by decide)] at htag
  rw [← htype] at hk
  refine ofValue_eq_ok.2 ⟨k, hk, htag, ofPayload_of_parted hvalue ?_ hpayload⟩
  rw [spellsOwnDate, show fieldOf (Value.mapping before).entries "type" = fieldOf before "type" from rfl,
    hk] at hdates
  exact hdates

end Condition

/-! ## Events -/

namespace Event

/-- Whether an event has a null for its conditions. -/
def hasNullConditions (v : Value) : Bool :=
  match Value.lookup "unlockedBy" v.entries with
  | some .null => true
  | _ => false

/-- A full event, the dates of its conditions in parts. -/
structure IsInParts (v : Value) : Prop where
  full : fieldOf v.entries "kind" = .null
  dates : ∀ c ∈ (fieldOf v.entries "unlockedBy").items, Condition.spellsOwnDate c = false

theorem recurrenceOf_of_recurrenceField {entries : List (String × Value)} {r : String}
    (h : recurrenceField entries = .text r) :
    recurrenceOf ((Value.lookup "recurrence" entries).getD (.text Recurrence.once.name)) = .text r := by
  unfold recurrenceField at h
  unfold recurrenceOf
  revert h
  generalize (Value.lookup "recurrence" entries).getD (.text Recurrence.once.name) = v
  intro h
  cases v with
  | mapping inner =>
    have h : fieldOf inner "type" = .text r := h
    show (Value.lookup "type" inner).getD (.text Recurrence.once.name) = .text r
    cases hl : Value.lookup "type" inner with
    | none =>
      rw [fieldOf_of_lookup_eq_none hl] at h
      cases h
    | some w =>
      rw [fieldOf_of_lookup hl] at h
      rw [h, Option.getD_some]
  | _ => exact h

theorem number_of_amount {π : Type} {place : π} {v : Value} {x : Float}
    (h : Document.amount place v = .ok x) : v.number = .ok x ∧ v ≠ .null := by
  unfold Document.amount at h
  split at h
  · rename_i i
    split at h
    · rename_i hx
      cases h
      exact ⟨hx, Value.noConfusion⟩
    · cases h
  · cases h
    exact ⟨rfl, Value.noConfusion⟩
  · cases h

/-- What is read of an event that the loader has taken apart, up to its conditions. -/
theorem ofValue_eq_of_head {entries : List (String × Value)} {h : EventHead} {r : String}
    (hhead : eventHead entries = .ok h) (hr : recurrenceField entries = .text r) :
    ofValue (.mapping entries) =
      (ofValueFault ((Value.lookup "unlockedBy" entries).getD (.list [])).elements >>= fun items =>
        items.mapM Condition.ofValue >>= fun conditions =>
          .ok ⟨h.name, h.type, h.amount, r, conditions, presentValue (Value.lookup "metadata" entries)⟩) := by
  obtain ⟨hname, htype, hamount, -, -⟩ := eventHead_eq_ok.1 hhead
  have hname : (Value.mapping entries).item "name" = .ok (.text h.name) :=
    item_of_fieldOf (eventName_eq_ok.1 hname).1 Value.noConfusion
  have htype : (Value.mapping entries).item "type" = .ok (.text h.type) :=
    item_of_fieldOf (word_eq_ok.1 htype).1 Value.noConfusion
  obtain ⟨hnumber, hnull⟩ := number_of_amount hamount
  have hamount : (Value.mapping entries).item "amount" = .ok (fieldOf entries "amount") :=
    item_of_fieldOf rfl hnull
  have htext (s : String) : (Value.text s).written = .ok s := rfl
  have hfield (k : String) : (Value.mapping entries).field? k = .ok (Value.lookup k entries) := rfl
  simp only [ofValue, ofValueFault, hfield, hname, htype, hamount, hnumber, htext,
    recurrenceOf_of_recurrenceField hr, ok_bind, ok_mapError]
  rfl

theorem elements_of_list {place : EventPlace} {entries : List (String × Value)} {items : List Value}
    (h : list place (fieldOf entries "unlockedBy") = .ok items)
    (hnull : hasNullConditions (.mapping entries) = false) :
    ((Value.lookup "unlockedBy" entries).getD (.list [])).elements = .ok items := by
  cases hl : Value.lookup "unlockedBy" entries with
  | none =>
    rw [fieldOf_of_lookup_eq_none hl] at h
    cases h
    rfl
  | some v =>
    rw [fieldOf_of_lookup hl] at h
    rw [Option.getD_some]
    rcases list_eq_ok.1 h with ⟨rfl, -⟩ | rfl
    · have : hasNullConditions (.mapping entries) = true := by
        show (match Value.lookup "unlockedBy" entries with | some .null => true | _ => false) = true
        rw [hl]
      exact absurd (this.symm.trans hnull) (by decide)
    · rfl

theorem mapM_ofValue_of_conditions {items : List Value} {cs : List (Condition Float)}
    (h : List.Forall₂ (fun v c => ∃ j, condition j v = .ok c) items cs)
    (hdates : ∀ c ∈ items, Condition.spellsOwnDate c = false) :
    items.mapM Condition.ofValue = .ok cs := by
  rw [mapM_eq_ok]
  induction h with
  | nil => exact .nil
  | cons hc _ ih =>
    obtain ⟨hdate, hdates⟩ := List.forall_mem_cons.1 hdates
    obtain ⟨j, hc⟩ := hc
    exact .cons (Condition.ofValue_of_condition hc hdate) (ih hdates)

/-- A full event is read alike, but for a null in the place of its conditions. -/
theorem ofValue_of_event {v : Value} {e : Event Float} (h : event v = .ok e) (hv : IsInParts v) :
    (hasNullConditions v = false → ∃ e', ofValue v = .ok e' ∧ e'.bare = e.bare) ∧
      (hasNullConditions v = true → ofValue v = .error (.value (.notIterable "NoneType"))) := by
  obtain ⟨entries, head, rfl, hhead, ⟨-, he⟩ | ⟨hkind, -⟩⟩ := event_eq_ok.1 h
  · obtain ⟨r, -, hr, rfl⟩ := fullEvent_eq_ok.1 he
    rw [ofValue_eq_of_head hhead hr]
    obtain ⟨-, -, -, hconditions, -⟩ := eventHead_eq_ok.1 hhead
    obtain ⟨items, hitems, hconditions⟩ := bind_eq_ok.1 hconditions
    constructor
    · intro hnull
      have hdates : ∀ c ∈ items, Condition.spellsOwnDate c = false := by
        rw [← items_of_list hitems]
        exact hv.dates
      rw [elements_of_list hitems hnull, ofValueFault, ok_mapError, ok_bind,
        mapM_ofValue_of_conditions (conditionsFrom_eq_ok hconditions) hdates, ok_bind]
      exact ⟨_, rfl, rfl⟩
    · intro hnull
      unfold hasNullConditions at hnull
      split at hnull
      · rename_i hl
        rw [show Value.lookup "unlockedBy" entries = some .null from hl]
        rfl
      · cases hnull
  · exact absurd hv.full hkind

theorem mapM_ofValue_of_events {items : List Value} {es : List (Event Float)}
    (h : List.Forall₂ (fun v e => event v = .ok e) items es) (hparts : ∀ v ∈ items, IsInParts v) :
    (items.any hasNullConditions = false →
      ∃ es', items.mapM ofValue = .ok es' ∧ es'.map bare = es.map bare) ∧
    (items.any hasNullConditions = true →
      items.mapM ofValue = .error (.value (.notIterable "NoneType"))) := by
  induction h with
  | nil => exact ⟨fun _ => ⟨[], rfl, rfl⟩, fun hnull => absurd hnull (by decide)⟩
  | @cons v e items es hv _ ih =>
    obtain ⟨hfirst, hrest⟩ := List.forall_mem_cons.1 hparts
    obtain ⟨hread, hstop⟩ := ofValue_of_event hv hfirst
    obtain ⟨ihread, ihstop⟩ := ih hrest
    rw [List.any_cons, List.mapM_cons]
    -- A null stops the reading with the same fault wherever it stands, so the first decides.
    cases hnull : hasNullConditions v with
    | true =>
      rw [hstop hnull]
      exact ⟨fun hfalse => absurd hfalse (by simp), fun _ => rfl⟩
    | false =>
      obtain ⟨e', he', hbare⟩ := hread hnull
      rw [he', ok_bind, Bool.false_or]
      constructor
      · intro hnone
        obtain ⟨es', hes', hbares⟩ := ihread hnone
        rw [hes']
        exact ⟨e' :: es', rfl, by rw [List.map_cons, List.map_cons, hbare, hbares]⟩
      · intro hsome
        rw [ihstop hsome]
        rfl

end Event

/-! ## Scenarios -/

namespace Scenario

theorem elements_of_events {place : Place} {v : Value} {items : List Value}
    (h : list place v = .ok items) :
    (if v.isTruthy then v.elements else .ok []) = .ok items := by
  rcases list_eq_ok.1 h with ⟨rfl, rfl⟩ | rfl
  · rfl
  · cases items <;> rfl

/-- A document of full events with dates in parts is read without judgement as it is loaded,
annotations apart. Only a null for the conditions of an event is refused where the loader takes it
for none. -/
theorem ofValue_of_ofMapping {entries : List (String × Value)} {doc : Document}
    (h : ofMapping entries = .ok doc)
    (hparts : ∀ v ∈ (fieldOf entries "events").items, Event.IsInParts v) :
    ((fieldOf entries "events").items.any Event.hasNullConditions = false →
      ∃ s, ofValue (.mapping entries) = .ok s ∧ s.bare = doc.scenario.bare ∧
        ((∀ x ∈ doc.scenario.numbers, (x == x) = true) →
          s.sameBy (· == ·) doc.scenario = true)) ∧
    ((fieldOf entries "events").items.any Event.hasNullConditions = true →
      ofValue (.mapping entries) = .error (.value (.notIterable "NoneType"))) := by
  obtain ⟨-, hname, -, items, hitems, hevents⟩ := ofMapping_eq_ok.1 h
  obtain ⟨hname, -⟩ := documentName_eq_ok.1 hname
  rw [items_of_list hitems] at hparts ⊢
  obtain ⟨hread, hstop⟩ := Event.mapM_ofValue_of_events hevents hparts
  have hsteps : ofValue (.mapping entries) =
      (items.mapM Event.ofValue >>= fun es => .ok ⟨doc.scenario.name, es⟩) := by
    have hfield (k : String) : (Value.mapping entries).field? k = .ok (Value.lookup k entries) := rfl
    have hnull : (Value.mapping entries).fieldOrNull "events" = .ok (fieldOf entries "events") := rfl
    have htext (s : String) : (Value.text s).written = .ok s := rfl
    simp only [ofValue, ofValueFault, hfield, hnull, ok_bind, ok_mapError, hname, htext,
      elements_of_events hitems]
    rfl
  rw [hsteps]
  constructor
  · intro hnone
    obtain ⟨es, hes, hbare⟩ := hread hnone
    have hsame : (⟨doc.scenario.name, es⟩ : Scenario Float).bare = doc.scenario.bare := by
      rw [Scenario.bare, Scenario.bare, hbare]
    rw [hes]
    exact ⟨_, rfl, hsame, sameBy_of_bare_eq hsame⟩
  · intro hsome
    rw [hstop hsome]
    rfl

/-- A monthly pay, with a value for its conditions. -/
def paid (conditions : Value) : List (String × Value) :=
  [("name", .text "Plan"), ("events", .list [.mapping [("name", .text "Pay"), ("type", .text "income"),
    ("amount", .float 1.5), ("recurrence", .text "monthly"), ("unlockedBy", conditions)]])]

def fromMarch : Value :=
  .mapping [("type", .text "date-in-range"),
    ("value", .mapping [("start", .mapping [("y", .int 2025), ("m", .int 3)]), ("end", .null)])]

def paidDocument (conditions : List (Condition Float)) : Document where
  scenario := ⟨"Plan", [⟨"Pay", "income", 1.5, "monthly", conditions, none⟩]⟩
  source := "<mapping>"

theorem ofValue_of_ofMapping_paid :
    ofMapping (paid (.list [fromMarch])) = .ok (paidDocument [.dateInRange ⟨2025, 3, 1⟩ none]) ∧
    (∃ s, ofValue (.mapping (paid (.list [fromMarch]))) = .ok s ∧
      s.bare = (paidDocument [.dateInRange ⟨2025, 3, 1⟩ none]).scenario.bare) ∧
    ofMapping (paid .null) = .ok (paidDocument []) ∧
    ofValue (.mapping (paid .null)) = .error (.value (.notIterable "NoneType")) := by
  have hmarch : ofMapping (paid (.list [fromMarch])) =
      .ok (paidDocument [.dateInRange ⟨2025, 3, 1⟩ none]) := rfl
  have hnull : ofMapping (paid .null) = .ok (paidDocument []) := rfl
  have hinParts : ∀ v ∈ (fieldOf (paid (.list [fromMarch])) "events").items, Event.IsInParts v := by
    exact List.forall_mem_singleton.2 ⟨rfl, List.forall_mem_singleton.2 rfl⟩
  have hfree : ∀ v ∈ (fieldOf (paid .null) "events").items, Event.IsInParts v :=
    List.forall_mem_singleton.2 ⟨rfl, List.forall_mem_nil _⟩
  obtain ⟨s, hs, hbare, -⟩ := (ofValue_of_ofMapping hmarch hinParts).1 rfl
  exact ⟨hmarch, ⟨s, hs, hbare⟩, hnull, (ofValue_of_ofMapping hnull hfree).2 rfl⟩

end Scenario

end Cashflow

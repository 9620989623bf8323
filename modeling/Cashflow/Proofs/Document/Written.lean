import Cashflow.Proofs.Document.Reading
import Cashflow.Proofs.Scenario.Sameness

/-!
# Scenarios written and loaded again

However a scenario was spelled when it was loaded, it is written in one form: full events with all
dates in parts. That form loads, and what it loads is the scenario (`ofMapping_toEntries`).

* `Event.IsLoadable`, `Scenario.IsLoadable` : what loading has checked, whatever the kind of event
  (`isLoadable_of_ofMapping`);
* `Event.wire` : the one form of a loadable event (`toValue_eq_wire`), which reads as the event
  (`event_wire`);
* `wireEntries`, `ofMapping_wire` : a mapping with these events is written (`toEntries_eq_ok`) and
  loads; its depth is bounded, whatever that of the first document was (`depth_toEntries`).
-/

namespace Cashflow

/-! ## Loadable events -/

/-- Annotations that are texts, as the loader leaves them. -/
def Value.ofNotes (notes : List (String × String)) : Value :=
  .mapping (notes.map fun n => (n.1, .text n.2))

/-- The annotations of an event, if it has any, are texts. -/
def Event.HasNotes (e : Event Float) : Prop :=
  ∀ v, e.metadata = some v → ∃ notes, v = Value.ofNotes notes

/-- What loading makes sure of. -/
structure Event.IsLoadable (e : Event Float) : Prop where
  name : Text.isBlankText e.name = false
  type : e.type ∈ eventTypes
  recurrence : e.recurrence ∈ Recurrence.all.map Recurrence.name
  metadata : ∀ v, e.metadata = some v → ∃ notes, v = Value.ofNotes notes

structure Scenario.IsLoadable (s : Scenario Float) : Prop where
  name : Text.isBlankText s.name = false
  events : ∀ e ∈ s.events, e.IsLoadable

namespace Document

theorem metadata_eq_some {v m : Value} (h : metadata v = .ok (some m)) :
    ∃ notes, m = Value.ofNotes notes := by
  unfold metadata at h
  split at h
  · cases h
  · obtain ⟨entries, -, h⟩ := bind_eq_ok.1 h
    split at h
    · cases h
    · cases h
      refine ⟨entries.map fun e => (e.1, e.2.shown), ?_⟩
      rw [Value.ofNotes, List.map_map]
      rfl

/-- An event with the name, type, amount and annotations of `h`, and a known recurrence. -/
def EventHead.Makes (h : EventHead) (e : Event Float) : Prop :=
  ∃ r ∈ Recurrence.all.map Recurrence.name, ∃ cs,
    e = ⟨h.name, h.type, h.amount, r, cs, h.metadata⟩

section Shorthands
variable {h : EventHead} {entries : List (String × Value)} {e : Event Float}

theorem makes_of_ofKind {kind : Value} (he : ofKind h entries kind = .ok e) : h.Makes e := by
  rcases ofKind_eq_ok.1 he with ⟨-, he⟩ | ⟨-, he⟩ | ⟨-, he⟩
  · obtain ⟨d, -, rfl⟩ := oneOffEvent_eq_ok.1 he
    exact ⟨_, by decide, _, rfl⟩
  · obtain ⟨first, last, r, -, -, -, hr, rfl⟩ := recurringEvent_eq_ok.1 he
    refine ⟨r, ?_, _, rfl⟩
    rcases hr with rfl | rfl <;> decide
  · obtain ⟨-, rfl⟩ := gatedEvent_eq_ok.1 he
    exact ⟨_, by decide, _, rfl⟩

theorem makes_of_fullEvent (he : fullEvent h entries = .ok e) : h.Makes e := by
  obtain ⟨r, hr, -, rfl⟩ := fullEvent_eq_ok.1 he
  exact ⟨r, hr, _, rfl⟩

end Shorthands

theorem isLoadable_of_event {v : Value} {e : Event Float} (h : event v = .ok e) : e.IsLoadable := by
  obtain ⟨entries, head, rfl, hhead, he⟩ := event_eq_ok.1 h
  obtain ⟨hname, htype, -, -, hmetadata⟩ := eventHead_eq_ok.1 hhead
  have hmake : head.Makes e := by
    rcases he with ⟨-, he⟩ | ⟨-, he⟩
    · exact makes_of_fullEvent he
    · exact makes_of_ofKind he
  obtain ⟨r, hr, cs, rfl⟩ := hmake
  refine ⟨(eventName_eq_ok.1 hname).2, (word_eq_ok.1 htype).2, hr, fun m hm => ?_⟩
  rw [show head.metadata = some m from hm] at hmetadata
  exact metadata_eq_some hmetadata

theorem isLoadable_of_ofMapping {entries : List (String × Value)} {doc : Document}
    (h : ofMapping entries = .ok doc) : doc.scenario.IsLoadable := by
  obtain ⟨-, hname, -, items, -, hevents⟩ := ofMapping_eq_ok.1 h
  refine ⟨(documentName_eq_ok.1 hname).2, fun e he => ?_⟩
  obtain ⟨v, -, hv⟩ := exists_of_forall₂ hevents he
  exact isLoadable_of_event hv

end Document

/-! ## What is written -/

namespace Event

/-- Annotations, unless there are none. -/
def notes (e : Event Float) : Option Value := e.metadata.filter Value.isTruthy

/-- The event with an empty mapping of annotations being none. -/
def withoutEmptyNotes (e : Event Float) : Event Float := { e with metadata := e.notes }

/-- The mapping that is written for a loadable event. -/
def wire (e : Event Float) : Value :=
  .mapping (e.fields ++ (e.notes.map fun v => ("metadata", v)).toList)

theorem notes_eq_ofNotes {e : Event Float} (he : e.HasNotes) {v : Value} (h : e.notes = some v) :
    ∃ notes, v = Value.ofNotes notes :=
  he v (Option.filter_eq_some_iff.1 h).1

theorem toValue_eq_wire {e : Event Float} (he : e.HasNotes) : e.toValue = .ok e.wire := by
  unfold toValue wire notes metadataFields
  cases hm : e.metadata with
  | none => rfl
  | some v =>
    obtain ⟨notes, rfl⟩ := he v hm
    cases notes <;> rfl

end Event

namespace Scenario

/-- The scenario with empty mappings of annotations being none. -/
def withoutEmptyNotes (s : Scenario Float) : Scenario Float :=
  { s with events := s.events.map Event.withoutEmptyNotes }

theorem bare_withoutEmptyNotes (s : Scenario Float) : s.withoutEmptyNotes.bare = s.bare := by
  simp only [withoutEmptyNotes, bare, List.map_map]
  rfl

end Scenario

namespace Document

/-- The entries of a written scenario, with those of its defaults. -/
def wireEntries (s : Scenario Float) (defaults : List (String × Value)) : List (String × Value) :=
  ("name", .text s.name) :: (defaults ++ [("events", .list (s.events.map Event.wire))])

/-- Writing a loadable scenario fails only in its defaults. -/
theorem toEntries_eq_ok {s : Scenario Float} (hs : s.IsLoadable) {d : Option RunDefaults}
    {written : List (String × Value)} :
    toEntries s d = .ok written ↔ ∃ defaults, (d.map defaultsFields).getD (.ok []) = .ok defaults ∧
      written = wireEntries s defaults := by
  have hevents : s.events.mapM Event.toValue = .ok (s.events.map Event.wire) :=
    mapM_eq_ok.2 (List.forall₂_map_right_iff.2 (List.forall₂_same.2 fun e he =>
      Event.toValue_eq_wire (hs.events e he).metadata))
  rw [toEntries, hevents, bind_eq_ok]
  constructor
  · rintro ⟨defaults, hd, hw⟩
    exact ⟨defaults, hd, (pure_eq_ok.1 hw).symm⟩
  · rintro ⟨defaults, hd, rfl⟩
    exact ⟨defaults, hd, rfl⟩

/-! ## What is loaded from it -/

theorem condition_toValue (j : Nat) (c : Condition Float) : condition j c.toValue = .ok c := by
  cases c with
  | dateInRange first last => cases last <;> rfl
  | _ => rfl

theorem conditionsFrom_toValue (j : Nat) (cs : List (Condition Float)) :
    conditionsFrom j (cs.map Condition.toValue) = .ok cs := by
  induction cs generalizing j with
  | nil => rfl
  | cons c cs ih => rw [List.map_cons, conditionsFrom, condition_toValue, ih]; rfl

theorem metadata_ofNotes (notes : List (String × String)) :
    metadata (Value.ofNotes notes) = .ok (some (Value.ofNotes notes)) := by
  have hwritten : (notes.map fun n => (n.1, Value.text n.2)).any (fun e => e.2.isUnwritten) = false := by
    simp [List.any_map, Value.isUnwritten]
  have hshown : (notes.map fun n => (n.1, Value.text n.2)).map (fun e => (e.1, Value.text e.2.shown)) =
      notes.map fun n => (n.1, Value.text n.2) := by
    rw [List.map_map]
    rfl
  show (if _ then _ else _) = _
  rw [hwritten, if_neg (by decide), hshown]
  rfl

theorem event_wire {e : Event Float} (he : e.IsLoadable) :
    event e.wire = .ok e.withoutEmptyNotes := by
  let head : EventHead := ⟨e.name, e.type, e.amount, e.conditions, e.notes⟩
  have hhead : eventHead (e.fields ++ (e.notes.map fun v => ("metadata", v)).toList) = .ok head := by
    refine eventHead_eq_ok.2 ⟨eventName_eq_ok.2 ⟨rfl, he.name⟩, word_eq_ok.2 ⟨rfl, he.type⟩, rfl,
      conditionsFrom_toValue 0 e.conditions, ?_⟩
    -- Annotations are the one field that may be missing.
    show metadata (fieldOf (e.fields ++ (e.notes.map fun v => ("metadata", v)).toList) "metadata") =
      .ok e.notes
    cases hn : e.notes with
    | none => rfl
    | some v =>
      obtain ⟨notes, rfl⟩ := Event.notes_eq_ofNotes he.metadata hn
      exact metadata_ofNotes notes
  have hkind : fieldOf (e.fields ++ (e.notes.map fun v => ("metadata", v)).toList) "kind" = .null := by
    cases e.notes <;> rfl
  exact event_eq_ok.2 ⟨_, head, rfl, hhead, Or.inl ⟨hkind,
    fullEvent_eq_ok.2 ⟨e.recurrence, he.recurrence, rfl, rfl⟩⟩⟩

/-- A mapping with the name and the written events of a loadable scenario loads it. -/
theorem ofMapping_wire {s : Scenario Float} (hs : s.IsLoadable) {entries : List (String × Value)}
    {d : RunDefaults} (hname : Value.lookup "name" entries = some (.text s.name))
    (hevents : fieldOf entries "events" = .list (s.events.map Event.wire))
    (hd : runDefaults entries = .ok d) :
    ofMapping entries = .ok ⟨s.withoutEmptyNotes, d, mappingSource⟩ := by
  refine ofMapping_eq_ok.2 ⟨rfl, documentName_eq_ok.2 ⟨?_, hs.name⟩, hd, s.events.map Event.wire, ?_, ?_⟩
  · rw [hname]
    rfl
  · rw [hevents]
    rfl
  · exact List.forall₂_map_left_iff.2 (List.forall₂_map_right_iff.2 (List.forall₂_same.2 fun e he =>
      event_wire (hs.events e he)))

end Document

/-! ## How deep it is -/

namespace Value

theorem depthOfItems_le {n : Nat} {l : List Value} :
    depthOfItems l ≤ n ↔ ∀ v ∈ l, v.depth ≤ n := by
  induction l with
  | nil => simp [depthOfItems]
  | cons v l ih => rw [depthOfItems, Nat.max_le, ih, List.forall_mem_cons]

theorem depthOfEntries_le {n : Nat} {l : List (String × Value)} :
    depthOfEntries l ≤ n ↔ ∀ e ∈ l, e.2.depth ≤ n := by
  induction l with
  | nil => simp [depthOfEntries]
  | cons e l ih => rw [depthOfEntries, Nat.max_le, ih, List.forall_mem_cons]

theorem depth_ofNotes (notes : List (String × String)) : (ofNotes notes).depth = 1 := by
  have : depthOfEntries (notes.map fun n => (n.1, Value.text n.2)) ≤ 0 :=
    depthOfEntries_le.2 (List.forall_mem_map.2 fun _ _ => Nat.le_refl 0)
  rw [ofNotes, depth]
  omega

end Value

theorem Condition.depth_toValue (c : Condition Float) : c.toValue.depth ≤ 3 := by
  cases c with
  | dateInRange first last =>
    cases last <;> simp [toValue, valueOf, Date.toValue, Value.depth, Value.depthOfEntries]
  | _ => simp [toValue, valueOf, Date.toValue, Value.depth, Value.depthOfEntries]

theorem Event.depth_wire {e : Event Float} (he : e.IsLoadable) : e.wire.depth ≤ 5 := by
  have hconditions : Value.depthOfItems (e.conditions.map Condition.toValue) ≤ 3 :=
    Value.depthOfItems_le.2 (List.forall_mem_map.2 fun c _ => c.depth_toValue)
  have hfields : ∀ f ∈ e.fields, f.2.depth ≤ 4 := by
    intro f hf
    simp only [fields, List.mem_cons, List.not_mem_nil, or_false] at hf
    rcases hf with rfl | rfl | rfl | rfl | rfl
    · exact Nat.zero_le _
    · exact Nat.zero_le _
    · exact Nat.zero_le _
    · exact Nat.succ_le_succ (Nat.zero_le _)
    · exact Nat.succ_le_succ hconditions
  have hnotes : ∀ f ∈ (e.notes.map fun v => ("metadata", v)).toList, f.2.depth ≤ 4 := by
    intro f hf
    obtain ⟨v, hv, rfl⟩ := Option.map_eq_some_iff.1 (Option.mem_toList.1 hf)
    obtain ⟨notes, rfl⟩ := notes_eq_ofNotes he.metadata hv
    rw [Value.depth_ofNotes]
    decide
  rw [wire, Value.depth]
  exact Nat.succ_le_succ (Value.depthOfEntries_le.2 (List.forall_mem_append.2 ⟨hfields, hnotes⟩))

namespace Document

/-- The depth of what is written, at most. -/
def writtenDepth : Nat := 7

theorem dateField_eq (key : String) (d : Option Date) :
    dateField key d = if d.any fun e => (Value.date e).isUnwritten then .error .longNumber
      else .ok (d.map fun e => (key, Value.text e.text)).toList := by
  cases d with
  | none => rfl
  | some e =>
    rw [Option.any_some, dateField, Value.written]
    split <;> rfl

/-- The entries that are written for defaults. -/
def defaultEntries (d : RunDefaults) : List (String × Value) :=
  ("initial_balance", .float d.opening) :: ((d.first.map fun e => ("start", .text e.text)).toList ++
    (d.last.map fun e => ("end", .text e.text)).toList)

/-- Only a number without a text keeps defaults from being written. -/
theorem defaultsFields_eq (d : RunDefaults) :
    defaultsFields d = if d.first.any (fun e => (Value.date e).isUnwritten) ||
        d.last.any (fun e => (Value.date e).isUnwritten) then .error .longNumber
      else .ok (defaultEntries d) := by
  rw [defaultsFields, dateField_eq, dateField_eq]
  cases d.first.any fun e => (Value.date e).isUnwritten with
  | true => rfl
  | false =>
    cases d.last.any fun e => (Value.date e).isUnwritten with
    | true => rfl
    | false => rfl

theorem depth_of_mem_defaultEntries (d : RunDefaults) : ∀ e ∈ defaultEntries d, e.2.depth = 0 := by
  have hdate : ∀ (key : String) (d : Option Date),
      ∀ e ∈ (d.map fun e => (key, Value.text e.text)).toList, e.2.depth = 0 := by
    intro key d e he
    obtain ⟨d, -, rfl⟩ := Option.map_eq_some_iff.1 (Option.mem_toList.1 he)
    rfl
  exact List.forall_mem_cons.2 ⟨rfl, List.forall_mem_append.2 ⟨hdate _ _, hdate _ _⟩⟩

theorem depth_toEntries {s : Scenario Float} (hs : s.IsLoadable) {d : Option RunDefaults}
    {written : List (String × Value)} (h : toEntries s d = .ok written) :
    (Value.mapping written).depth ≤ writtenDepth := by
  obtain ⟨defaults, hd, rfl⟩ := (toEntries_eq_ok hs).1 h
  have hdefaults : ∀ e ∈ defaults, e.2.depth = 0 := by
    cases d with
    | none =>
      cases hd
      exact List.forall_mem_nil _
    | some d =>
      rw [Option.map_some, Option.getD_some, defaultsFields_eq] at hd
      split at hd
      · cases hd
      · cases hd
        exact depth_of_mem_defaultEntries d
  have hevents : Value.depthOfItems (s.events.map Event.wire) ≤ 5 :=
    Value.depthOfItems_le.2 (List.forall_mem_map.2 fun e he => Event.depth_wire (hs.events e he))
  have hentries : ∀ e ∈ wireEntries s defaults, e.2.depth ≤ 6 := by
    refine List.forall_mem_cons.2 ⟨Nat.zero_le _, List.forall_mem_append.2 ⟨fun e he => ?_, ?_⟩⟩
    · rw [hdefaults e he]
      exact Nat.zero_le _
    · exact List.forall_mem_singleton.2 (Nat.succ_le_succ hevents)
  rw [Value.depth]
  exact Nat.succ_le_succ (Value.depthOfEntries_le.2 hentries)

theorem ofMappingWithin_of_depth_le {limit : Nat} {entries : List (String × Value)}
    (h : (Value.mapping entries).depth ≤ limit) :
    ofMappingWithin limit entries = ofMapping entries :=
  if_neg (Nat.not_lt.2 h)

/-! ## Round trip -/

/-- Loading a scenario, writing it and loading what was written gives the scenario, with an empty
mapping of annotations being none. Where the depth is limited, `writtenDepth` is enough. -/
theorem ofMapping_toEntries {entries : List (String × Value)} {doc : Document}
    (h : ofMapping entries = .ok doc) :
    ∃ written again, toEntries doc.scenario none = .ok written ∧
      (∀ limit, writtenDepth ≤ limit → ofMappingWithin limit written = .ok again) ∧
      again.scenario = doc.scenario.withoutEmptyNotes ∧
      ((∀ x ∈ doc.scenario.numbers, (x == x) = true) →
        again.scenario.sameBy (· == ·) doc.scenario = true) := by
  have hs := isLoadable_of_ofMapping h
  have hwritten := (toEntries_eq_ok hs (d := none)).2 ⟨[], rfl, rfl⟩
  refine ⟨wireEntries doc.scenario [], ⟨doc.scenario.withoutEmptyNotes, {}, mappingSource⟩,
    hwritten, fun limit hlimit => ?_, rfl, fun hx => ?_⟩
  · rw [ofMappingWithin_of_depth_le (Nat.le_trans (depth_toEntries hs hwritten) hlimit)]
    exact ofMapping_wire hs rfl rfl rfl
  · exact Scenario.sameBy_of_bare_eq (Scenario.bare_withoutEmptyNotes _) hx

/-- A salary every month with an empty note, a car once there is money for it, a full event that
follows the car, and one that only waits. -/
def mixedPlan : List (String × Value) :=
  [("name", .text "Plan"), ("start", .text "2025-01"), ("events", .list
    [.mapping [("kind", .text "recurring"), ("name", .text "Salary"), ("type", .text "income"),
      ("amount", .float 3000), ("start", .text " 2025-1-15"), ("metadata", .mapping [])],
    .mapping [("kind", .text "one-off"), ("name", .text "Car"), ("type", .text "expense"),
      ("amount", .float 20000), ("date", .mapping [("y", .int 2026), ("m", .text "04")]),
      ("unlockedBy", .list [.mapping [("type", .text "networth-is-above"),
        ("value", .mapping [("amount", .float 25000)])]]),
      ("metadata", .mapping [("seen", .bool true)])],
    .mapping [("name", .text "Fuel"), ("type", .text "expense"), ("amount", .float 80),
      ("recurrence", .text "monthly"), ("unlockedBy", .list [.mapping
        [("type", .text "date-in-range"), ("value", .mapping [("start", .text "2026-04")])]])],
    .mapping [("kind", .text "event"), ("name", .text "Trip"), ("type", .text "expense"),
      ("amount", .float 500), ("unlockedBy", .list [.mapping
        [("type", .text "event-happened"), ("value", .mapping [("eventName", .text "Car")])]])]])]

def mixedDocument : Document where
  scenario := ⟨"Plan",
    [⟨"Salary", "income", 3000, "monthly", [.dateInRange ⟨2025, 1, 15⟩ none], some (.mapping [])⟩,
    ⟨"Car", "expense", 20000, "once", [.networthIsAbove "" 25000, .dateIs ⟨2026, 4, 1⟩],
      some (.mapping [("seen", .text "True")])⟩,
    ⟨"Fuel", "expense", 80, "monthly", [.dateInRange ⟨2026, 4, 1⟩ none], none⟩,
    ⟨"Trip", "expense", 500, "once", [.eventHappened "Car"], none⟩]⟩
  defaults := { first := some ⟨2025, 1, 1⟩ }
  source := "<mapping>"

theorem ofMapping_toEntries_mixedPlan :
    ofMapping mixedPlan = .ok mixedDocument ∧
      ∃ written again, toEntries mixedDocument.scenario none = .ok written ∧
        (∀ limit, writtenDepth ≤ limit → ofMappingWithin limit written = .ok again) ∧
        again.scenario = mixedDocument.scenario.withoutEmptyNotes ∧
        ((∀ x ∈ mixedDocument.scenario.numbers, (x == x) = true) →
          again.scenario.sameBy (· == ·) mixedDocument.scenario = true) :=
  ⟨rfl, ofMapping_toEntries (show ofMapping mixedPlan = .ok mixedDocument from rfl)⟩

end Document

end Cashflow

import Cashflow.Proofs.Document.Written

/-!
# Events judged one by one

No event of a document has a say in how another is read. A document whose events load one at a time
loads with all of them; else the first that does not load alone decides, and it is blamed in its own
place in the words that it met alone (`Blames`, `ofMapping_event_by_event`).

* `eventsFrom_append_error` : the first bad event ends the reading of the list;
* `ofMapping_eq_events`, `ofMapping_alone` : a document is its events, and what the rest of it gives;
* `ofMappingWithin_alone` : a document that is not too deep is not too deep with one of its events.
-/

namespace Cashflow

/-- To put a value in the place of one that is as deep makes nothing deeper. -/
theorem Value.depthOfEntries_assign {k : String} {v : Value} {l : List (String × Value)}
    (h : v.depth ≤ (Document.fieldOf l k).depth) :
    depthOfEntries (assign k v l) ≤ depthOfEntries l := by
  induction l with
  | nil =>
    rw [assign, depthOfEntries]
    exact Nat.max_le.2 ⟨h, Nat.le_refl 0⟩
  | cons e l ih =>
    rw [assign]
    rw [Document.fieldOf, lookup] at h
    split
    · rename_i hk
      rw [if_pos hk, Option.getD_some] at h
      exact Nat.max_le.2 ⟨Nat.le_trans h (Nat.le_max_left ..), Nat.le_max_right ..⟩
    · rename_i hk
      rw [if_neg hk] at h
      exact Nat.max_le.2
        ⟨Nat.le_max_left .., Nat.le_trans (ih h) (Nat.le_max_right ..)⟩

namespace Document

/-! ## The first bad event -/

theorem eventsFrom_append_error {i : Nat} {before after : List Value} {v : Value}
    {m : Misread EventPlace} (hbefore : ∀ u ∈ before, ∃ e, event u = .ok e)
    (hv : event v = .error m) :
    eventsFrom i (before ++ v :: after) = .error (m.map (Place.event (i + before.length))) := by
  induction before generalizing i with
  | nil =>
    rw [List.nil_append, eventsFrom, hv]
    rfl
  | cons u before ih =>
    obtain ⟨⟨e, he⟩, hbefore⟩ := List.forall_mem_cons.1 hbefore
    rw [List.cons_append, eventsFrom, he, ok_mapError, ok_bind, ih hbefore, List.length_cons]
    have hplace : i + 1 + before.length = i + (before.length + 1) := by omega
    rw [hplace]
    rfl

/-! ## One event alone -/

section Alone
variable {entries : List (String × Value)} {name : String} {defaults : RunDefaults}

theorem ofMapping_eq_events {items : List Value} (hname : documentName entries = .ok name)
    (hdefaults : runDefaults entries = .ok defaults)
    (hitems : fieldOf entries "events" = .list items) :
    ofMapping entries = ((eventsFrom 0 items).map fun es =>
      (⟨⟨name, es⟩, defaults, mappingSource⟩ : Document)).mapError (failureOf mappingSource) := by
  have hlist : list (Place.field "events") (fieldOf entries "events") = .ok items := by
    rw [hitems]
    rfl
  rw [ofMapping, ofEntries, parts, hname, ok_bind, hdefaults, ok_bind, hlist, ok_bind]
  cases eventsFrom 0 items with
  | ok es => rfl
  | error m => rfl

/-- What one event alone comes to: its outcome, in the first place. -/
theorem ofMapping_alone (hname : documentName entries = .ok name)
    (hdefaults : runDefaults entries = .ok defaults) (v : Value) :
    ofMapping (withEvents [v] entries) = ((event v).map fun e =>
      (⟨⟨name, [e]⟩, defaults, mappingSource⟩ : Document)).mapError
        fun m => failureOf mappingSource (m.map (Place.event 0)) := by
  rw [ofMapping_eq_events ((documentName_withEvents [v] entries).trans hname)
    ((runDefaults_withEvents [v] entries).trans hdefaults) (fieldOf_withEvents [v] entries), eventsFrom]
  cases event v with
  | ok e => rfl
  | error m => rfl

theorem ofMapping_alone_eq_ok (hname : documentName entries = .ok name)
    (hdefaults : runDefaults entries = .ok defaults) {v : Value} {doc : Document} :
    ofMapping (withEvents [v] entries) = .ok doc ↔
      ∃ e, event v = .ok e ∧ doc = ⟨⟨name, [e]⟩, defaults, mappingSource⟩ := by
  rw [ofMapping_alone hname hdefaults, mapError_eq_ok]
  cases event v with
  | ok e => simp [Except.map, eq_comm]
  | error m => simp [Except.map]

theorem ofMapping_alone_eq_error (hname : documentName entries = .ok name)
    (hdefaults : runDefaults entries = .ok defaults) {v : Value} {f : LoadFailure} :
    ofMapping (withEvents [v] entries) = .error f ↔
      ∃ m, event v = .error m ∧ f = failureOf mappingSource (m.map (Place.event 0)) := by
  rw [ofMapping_alone hname hdefaults]
  cases event v with
  | ok e => simp [Except.map, Except.mapError]
  | error m => simp [Except.map, Except.mapError, eq_comm]

theorem depth_alone {items : List Value} (hitems : fieldOf entries "events" = .list items) {v : Value}
    (hv : v ∈ items) :
    (Value.mapping (withEvents [v] entries)).depth ≤ (Value.mapping entries).depth := by
  have hdepth : v.depth ≤ Value.depthOfItems items :=
    Value.depthOfItems_le.1 (Nat.le_refl _) v hv
  have hlist : (Value.list [v]).depth ≤ (fieldOf entries "events").depth := by
    rw [hitems, Value.depth, Value.depth]
    exact Nat.succ_le_succ (Nat.max_le.2 ⟨hdepth, Nat.zero_le _⟩)
  rw [Value.depth, Value.depth]
  exact Nat.succ_le_succ (Value.depthOfEntries_assign hlist)

theorem ofMappingWithin_alone {items : List Value} (hitems : fieldOf entries "events" = .list items)
    {limit : Nat} (hlimit : (Value.mapping entries).depth ≤ limit) {v : Value} (hv : v ∈ items) :
    ofMappingWithin limit (withEvents [v] entries) = ofMapping (withEvents [v] entries) :=
  ofMappingWithin_of_depth_le (Nat.le_trans (depth_alone hitems hv) hlimit)

end Alone

/-! ## The same fault in another place -/

/-- What an event alone fails with, and the same at the position `i`. A problem has the words of the
other but for the place that it starts with, and a fault that escapes is the same. -/
inductive Blames (i : Nat) : LoadFailure → LoadFailure → Prop where
  | problem {alone blamed : LoadFault} (rest : String)
      (first : alone.message = "<mapping>::events[0]" ++ rest)
      (moved : blamed.message = s!"<mapping>::events[{natText i}]" ++ rest) :
      Blames i (.load alone) (.load blamed)
  | escaped (fault : Fault) : Blames i (.escaped fault) (.escaped fault)

theorem message_event (i : Nat) (place : EventPlace) (p : Problem) :
    (LoadFault.problem mappingSource (.event i place) p).message =
      s!"<mapping>::events[{natText i}]" ++ (place.text ++ ": " ++ p.message) := by
  have hlabel : "<mapping>::events[" = mappingSource ++ ("::" ++ "events[") := by decide
  show mappingSource ++ "::" ++ ("events[" ++ natText i ++ "]" ++ place.text) ++ ": " ++ p.message =
    "<mapping>::events[" ++ natText i ++ "]" ++ (place.text ++ ": " ++ p.message)
  rw [hlabel]
  simp only [String.append_assoc]

theorem blames_failureOf (i : Nat) (m : Misread EventPlace) :
    Blames i (failureOf mappingSource (m.map (Place.event 0)))
      (failureOf mappingSource (m.map (Place.event i))) := by
  cases m with
  | problem place p =>
    have hfirst : natText 0 = "0" := by
      rw [natText, Text.digits_of_lt (by decide)]
      rfl
    have halone := message_event 0 place p
    rw [hfirst] at halone
    exact .problem _ halone (message_event i place p)
  | escaped fault => exact .escaped fault

/-- A document with a list of events, the rest of which loads, has the events that it has one at a
time. If one does not load alone, then the first of these fails the document as it failed alone, in its
own place. A limit that the document is not too deep for changes nothing of this. -/
theorem ofMapping_event_by_event {entries : List (String × Value)} {items : List Value} {name : String}
    {defaults : RunDefaults} (hname : documentName entries = .ok name)
    (hdefaults : runDefaults entries = .ok defaults)
    (hitems : fieldOf entries "events" = .list items) :
    (∀ docs, List.Forall₂ (fun v doc => ofMapping (withEvents [v] entries) = .ok doc) items docs →
      ofMapping entries =
        .ok ⟨⟨name, docs.flatMap fun doc => doc.scenario.events⟩, defaults, mappingSource⟩) ∧
    (∀ i v alone, items[i]? = some v →
      (∀ j u, j < i → items[j]? = some u → ∃ doc, ofMapping (withEvents [u] entries) = .ok doc) →
      ofMapping (withEvents [v] entries) = .error alone →
      ∃ blamed, ofMapping entries = .error blamed ∧ Blames i alone blamed) ∧
    ∀ limit, (Value.mapping entries).depth ≤ limit →
      ofMappingWithin limit entries = ofMapping entries ∧
      ∀ v ∈ items, ofMappingWithin limit (withEvents [v] entries) = ofMapping (withEvents [v] entries) := by
  refine ⟨fun docs h => ?_, fun i v alone hv hbefore halone => ?_, fun limit hlimit =>
    ⟨ofMappingWithin_of_depth_le hlimit, fun v hv => ofMappingWithin_alone hitems hlimit hv⟩⟩
  · have hevents : List.Forall₂ (fun v e => event v = .ok e) items
        (docs.flatMap fun doc => doc.scenario.events) := by
      clear hitems
      induction h with
      | nil => exact .nil
      | cons h _ ih =>
        obtain ⟨e, he, rfl⟩ := (ofMapping_alone_eq_ok hname hdefaults).1 h
        exact .cons he ih
    rw [ofMapping_eq_events hname hdefaults hitems, eventsFrom_eq_ok.2 hevents]
    rfl
  · obtain ⟨m, hm, rfl⟩ := (ofMapping_alone_eq_error hname hdefaults).1 halone
    obtain ⟨hi, hget⟩ := List.getElem?_eq_some_iff.1 hv
    have hsplit : items = items.take i ++ v :: items.drop (i + 1) := by
      rw [← hget, List.getElem_cons_drop, List.take_append_drop]
    have hearlier : ∀ u ∈ items.take i, ∃ e, event u = .ok e := by
      intro u hu
      obtain ⟨j, hj, rfl⟩ := List.mem_take_iff_getElem.1 hu
      obtain ⟨hji, hlen⟩ := Nat.lt_min.1 hj
      obtain ⟨doc, hdoc⟩ := hbefore j _ hji (List.getElem?_eq_getElem hlen)
      obtain ⟨e, he, -⟩ := (ofMapping_alone_eq_ok hname hdefaults).1 hdoc
      exact ⟨e, he⟩
    have hevents : eventsFrom 0 items = .error (m.map (Place.event i)) := by
      have hlen : 0 + (items.take i).length = i := by
        rw [List.length_take]
        omega
      rw [hsplit, eventsFrom_append_error hearlier hm, hlen]
    refine ⟨failureOf mappingSource (m.map (Place.event i)), ?_, blames_failureOf i m⟩
    rw [ofMapping_eq_events hname hdefaults hitems, hevents]
    rfl

/-- A salary, and a deposit that waits for it. -/
def soundEvents : List Value :=
  [.mapping [("kind", .text "recurring"), ("name", .text "Salary"), ("type", .text "income"),
    ("amount", .float 3000), ("start", .text "2025-01")],
  .mapping [("name", .text "Deposit"), ("type", .text "expense"), ("amount", .float 900),
    ("unlockedBy", .list [.mapping [("type", .text "event-happened"),
      ("value", .mapping [("eventName", .text "Salary")])]])]]

/-- A course from a month that does not exist. -/
def misdatedCourse : Value :=
  .mapping [("name", .text "Course"), ("type", .text "expense"), ("amount", .float 200),
    ("unlockedBy", .list [.mapping [("type", .text "networth-is-above"),
      ("value", .mapping [("amount", .float 1000)])],
      .mapping [("type", .text "date-in-range"), ("value", .mapping [("start", .text "2025-13")])]])]

def planOf (items : List Value) : List (String × Value) :=
  [("name", .text "Plan"), ("events", .list items)]

def misdatedPlan : List (String × Value) :=
  planOf (soundEvents ++ [misdatedCourse, .mapping [("type", .text "income")]])

def misdatedPlace (i : Nat) : LoadFailure :=
  .load (.problem "<mapping>" (.event i (.payload 1 (some "start"))) (.dateText (.month 13 "2025-13")))

theorem ofMapping_event_by_event_misdatedPlan :
    ofMapping (planOf soundEvents) = .ok ⟨⟨"Plan",
      [⟨"Salary", "income", 3000, "monthly", [.dateInRange ⟨2025, 1, 1⟩ none], none⟩,
      ⟨"Deposit", "expense", 900, "once", [.eventHappened "Salary"], none⟩]⟩, {}, "<mapping>"⟩ ∧
    ∃ blamed, ofMapping misdatedPlan = .error blamed ∧ Blames 2 (misdatedPlace 0) blamed := by
  let salary : Document := ⟨⟨"Plan", [⟨"Salary", "income", 3000, "monthly",
    [.dateInRange ⟨2025, 1, 1⟩ none], none⟩]⟩, {}, "<mapping>"⟩
  let deposit : Document := ⟨⟨"Plan", [⟨"Deposit", "expense", 900, "once",
    [.eventHappened "Salary"], none⟩]⟩, {}, "<mapping>"⟩
  constructor
  · have hname : documentName (planOf soundEvents) = .ok "Plan" := rfl
    exact (ofMapping_event_by_event hname rfl rfl).1 [salary, deposit] (.cons rfl (.cons rfl .nil))
  · have hname : documentName misdatedPlan = .ok "Plan" := rfl
    refine (ofMapping_event_by_event hname rfl rfl).2.1 2 misdatedCourse _ rfl (fun j u hj hu => ?_) rfl
    rcases j with _ | _ | j
    · cases hu
      exact ⟨salary, rfl⟩
    · cases hu
      exact ⟨deposit, rfl⟩
    · omega

end Document

end Cashflow

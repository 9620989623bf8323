import Cashflow.Document.Load
import Cashflow.Keyed
import Cashflow.Proofs.Except

/-!
# Readings

What the parts of a document are when they are read:

* `lookup_assign` : the fields of a mapping after one was changed;
* `withParts_eq_ok` : the payload of a condition before and after its dates are taken apart
  (`Parted`);
* `condition_eq_ok`, `eventHead_eq_ok`, `fullEvent_eq_ok`, `event_eq_ok`, `ofMapping_eq_ok` : the
  fields that a condition, an event and a document are read from;
* `Spells`, `date_eq_ok`, `oneOffEvent_eq_ok`, `recurringEvent_eq_ok`, `runDefaults_eq_ok` : what is
  read as a date, and where;
* `withEvents`, `ofMapping_withEvents_eq_ok` : a document with other events in the place of its own.
-/

namespace Cashflow

/-! ## Fields -/

namespace Value

/-- The items of a list; other values have none. -/
def items : Value → List Value
  | .list items => items
  | _ => []

/-- The entries of a mapping; other values have none. -/
def entries : Value → List (String × Value)
  | .mapping entries => entries
  | _ => []

theorem lookup_eq_find (k : String) (l : List (String × Value)) : lookup k l = Keyed.find k l := by
  induction l with
  | nil => rfl
  | cons e l ih => rw [lookup, Keyed.find, ih]

theorem assign_eq_insert (k : String) (v : Value) (l : List (String × Value)) :
    assign k v l = Keyed.insert k v l := by
  induction l with
  | nil => rfl
  | cons e l ih => rw [assign, Keyed.insert, ih]

theorem lookup_assign (k a : String) (v : Value) (l : List (String × Value)) :
    lookup a (assign k v l) = if k = a then some v else lookup a l := by
  rw [assign_eq_insert, lookup_eq_find, Keyed.find_insert, lookup_eq_find]

end Value

theorem Event.recurring_eq_ok {type name : String} {amount : Float} {first : Date}
    {last : Option Date} {frequency : Value} {cs : List (Condition Float)} {m : Option Value}
    {e : Event Float} :
    Event.recurring type name amount first last frequency cs m = .ok e ↔
      ∃ r, frequency = .text r ∧ (r = Recurrence.monthly.name ∨ r = Recurrence.yearly.name) ∧
        e = ⟨name, type, amount, r, cs ++ [.dateInRange first last], m⟩ := by
  constructor
  · intro h
    unfold Event.recurring at h
    split at h
    · split at h
      · cases h
        exact ⟨_, rfl, by assumption, rfl⟩
      · cases h
    · cases h
  · rintro ⟨r, rfl, hr, rfl⟩
    simp [Event.recurring, hr]

namespace Document
variable {π : Type}

theorem fieldOf_of_lookup {entries : List (String × Value)} {k : String} {v : Value}
    (h : Value.lookup k entries = some v) : fieldOf entries k = v := by
  rw [fieldOf, h, Option.getD_some]

theorem fieldOf_of_lookup_eq_none {entries : List (String × Value)} {k : String}
    (h : Value.lookup k entries = none) : fieldOf entries k = .null := by
  rw [fieldOf, h, Option.getD_none]

theorem fieldOf_assign (k a : String) (v : Value) (entries : List (String × Value)) :
    fieldOf (Value.assign k v entries) a = if k = a then v else fieldOf entries a := by
  rw [fieldOf, Value.lookup_assign]
  split <;> rfl

theorem item_eq_ok {k : String} {v w : Value} (h : v.item k = .ok w) :
    v = .mapping v.entries ∧ w = fieldOf v.entries k := by
  cases v with
  | mapping entries =>
    simp only [Value.item] at h
    split at h
    · rename_i x hx
      cases h
      exact ⟨rfl, (fieldOf_of_lookup hx).symm⟩
    · cases h
  | _ => cases h

/-- A field that is not null is there. -/
theorem item_of_fieldOf {entries : List (String × Value)} {k : String} {v : Value}
    (h : fieldOf entries k = v) (hv : v ≠ .null) : (Value.mapping entries).item k = .ok v := by
  rw [Value.item]
  cases hl : Value.lookup k entries with
  | none =>
    rw [fieldOf_of_lookup_eq_none hl] at h
    exact absurd h.symm hv
  | some w => rw [← h, fieldOf_of_lookup hl]

/-! ## Parts -/

theorem mapping_eq_ok {place : π} {v : Value} {entries : List (String × Value)} :
    mapping place v = .ok entries ↔ v = .mapping entries := by
  cases v <;> simp [mapping, problem]

theorem list_eq_ok {place : π} {v : Value} {items : List Value} :
    list place v = .ok items ↔ v = .null ∧ items = [] ∨ v = .list items := by
  cases v <;> simp [list, problem, eq_comm]

theorem items_of_list {place : π} {v : Value} {items : List Value} (h : list place v = .ok items) :
    v.items = items := by
  rcases list_eq_ok.1 h with ⟨rfl, rfl⟩ | rfl <;> rfl

theorem problemShowing_ne_ok {β : Type} {place : π} {v : Value} {p : Problem} {b : β} :
    problemShowing place v p ≠ .ok b := by
  unfold problemShowing
  split
  · rintro ⟨⟩
  · rintro ⟨⟩

theorem word_eq_ok {place : EventPlace} {options : List String} {v : Value} {s : String} :
    word place options v = .ok s ↔ v = .text s ∧ s ∈ options := by
  constructor
  · intro h
    unfold word at h
    split at h
    · split at h
      · rename_i hs
        cases h
        exact ⟨rfl, by simpa using hs⟩
      · cases h
    · exact absurd h problemShowing_ne_ok
  · rintro ⟨rfl, hs⟩
    exact if_pos (by simpa using hs)

theorem judged_eq_ok {β : Type} {place : π} {p : ValueFault → Problem} {r : Except ValueFault β}
    {b : β} : judged place p r = .ok b ↔ r = .ok b := by
  cases r with
  | ok a => simp [judged]
  | error f =>
    constructor
    · intro h
      unfold judged at h
      split at h
      · contradiction
      · split at h <;> cases h
    · intro h
      cases h

/-! ## Dates -/

/-- The date that a value spells: a text in figures, a mapping by its parts. -/
inductive Spells : Value → Date → Prop where
  | text {s : String} {d : Date} (h : Date.parse s = .ok d) : Spells (.text s) d
  | parts {l : List (String × Value)} {d : Date} (h : Date.ofValue (.mapping l) = .ok d) :
      Spells (.mapping l) d
  | day (d : Date) : Spells (.day d) d
  | moment (d : Date) (clock : Clock) : Spells (.moment d clock) d
  | date (d : Date) : Spells (.date d) d

/-- A date that may be left out, null being none. -/
def SpellsIfAny (v : Value) (o : Option Date) : Prop :=
  v = .null ∧ o = none ∨ ∃ d, Spells v d ∧ o = some d

theorem spellsIfAny_none {v : Value} : SpellsIfAny v none ↔ v = .null := by
  simp [SpellsIfAny]

theorem spellsIfAny_some {v : Value} {d : Date} : SpellsIfAny v (some d) ↔ Spells v d := by
  simp [SpellsIfAny]

theorem date_eq_ok {place : π} {v : Value} {o : Option Date} :
    date place v = .ok o ↔ SpellsIfAny v o := by
  constructor
  · intro h
    unfold date at h
    split at h
    · cases h
      exact Or.inl ⟨rfl, rfl⟩
    · cases h
      exact Or.inr ⟨_, .date _, rfl⟩
    · cases h
      exact Or.inr ⟨_, .day _, rfl⟩
    · cases h
      exact Or.inr ⟨_, .moment _ _, rfl⟩
    · split at h
      · cases h
        exact Or.inr ⟨_, .text (by assumption), rfl⟩
      · cases h
    · rename_i l
      obtain ⟨d, hd, h⟩ := bind_eq_ok.1 (show (judged place _ _ >>= fun d => .ok (some d)) = _ from h)
      cases h
      exact Or.inr ⟨d, .parts (judged_eq_ok.1 hd), rfl⟩
    · cases h
  · rintro (⟨rfl, rfl⟩ | ⟨d, hd, rfl⟩)
    · rfl
    · cases hd with
      | text h => rw [date, h]
      | parts h => rw [date, judged_eq_ok.2 h]; rfl
      | day d => rfl
      | moment d clock => rfl
      | date d => rfl

theorem dateValue_eq_ok {place : EventPlace} {v w : Value} (hv : spellsDate v = true) :
    dateValue place v = .ok w ↔ ∃ d, Spells v d ∧ w = d.toValue := by
  simp only [dateValue, bind_eq_ok, pure_eq_ok, date_eq_ok]
  constructor
  · rintro ⟨o, ⟨rfl, -⟩ | ⟨d, hd, rfl⟩, rfl⟩
    · cases hv
    · exact ⟨d, hd, rfl⟩
  · rintro ⟨d, hd, rfl⟩
    exact ⟨some d, spellsIfAny_some.2 hd, rfl⟩

/-! ## Dates taken apart -/

/-- A value before and after: a spelled date becomes its parts, anything else stays. -/
def Respelled (v w : Value) : Prop :=
  spellsDate v = false ∧ w = v ∨ spellsDate v = true ∧ ∃ d, Spells v d ∧ w = d.toValue

/-- A payload before and after: as a date, or as a mapping with dates under `start` and `end`. -/
inductive Parted : Value → Value → Prop where
  | value {v w : Value} (plain : ∀ p, v ≠ .mapping p) (h : Respelled v w) : Parted v w
  | mapping {p q : List (String × Value)} (first : Respelled (fieldOf p "start") (fieldOf q "start"))
      (last : Respelled (fieldOf p "end") (fieldOf q "end"))
      (rest : ∀ k, k ≠ "start" → k ≠ "end" → Value.lookup k q = Value.lookup k p) :
      Parted (.mapping p) (.mapping q)

theorem respelled_self {v : Value} (h : spellsDate v = false) : Respelled v v := Or.inl ⟨h, rfl⟩

theorem withDateParts_eq_ok {j : Nat} {key : String} {p q : List (String × Value)}
    (h : withDateParts j key p = .ok q) :
    Respelled (fieldOf p key) (fieldOf q key) ∧
      ∀ k, k ≠ key → Value.lookup k q = Value.lookup k p := by
  unfold withDateParts at h
  split at h
  · rename_i v hv
    rw [fieldOf_of_lookup hv]
    split at h
    · rename_i hs
      obtain ⟨w, hw, hq⟩ := bind_eq_ok.1 h
      obtain rfl := pure_eq_ok.1 hq
      refine ⟨Or.inr ⟨hs, ?_⟩, fun k hk => ?_⟩
      · rw [fieldOf_assign, if_pos rfl]
        exact (dateValue_eq_ok hs).1 hw
      · rw [Value.lookup_assign, if_neg (Ne.symm hk)]
    · rename_i hs
      cases h
      rw [fieldOf_of_lookup hv]
      exact ⟨respelled_self (by simpa using hs), fun _ _ => rfl⟩
  · rename_i hv
    cases h
    rw [fieldOf_of_lookup_eq_none hv]
    exact ⟨respelled_self rfl, fun _ _ => rfl⟩

/-- Only the payload of a condition changes when its dates are taken apart. -/
theorem withParts_eq_ok {j : Nat} {before after : List (String × Value)}
    (h : withParts j before = .ok after) :
    Parted (fieldOf before "value") (fieldOf after "value") ∧
      ∀ k, k ≠ "value" → Value.lookup k after = Value.lookup k before := by
  have changed (w : Value) : fieldOf (Value.assign "value" w before) "value" = w ∧
      ∀ k, k ≠ "value" → Value.lookup k (Value.assign "value" w before) = Value.lookup k before := by
    refine ⟨by rw [fieldOf_assign, if_pos rfl], fun k hk => ?_⟩
    rw [Value.lookup_assign, if_neg (Ne.symm hk)]
  unfold withParts at h
  split at h
  · rename_i p hp
    obtain ⟨q, hq, h⟩ := bind_eq_ok.1 h
    obtain ⟨r, hr, h⟩ := bind_eq_ok.1 h
    obtain rfl := pure_eq_ok.1 h
    obtain ⟨hfirst, hq⟩ := withDateParts_eq_ok hq
    obtain ⟨hlast, hr⟩ := withDateParts_eq_ok hr
    refine ⟨?_, (changed _).2⟩
    rw [(changed _).1, fieldOf_of_lookup hp]
    -- The second step leaves the start alone, the first one the end.
    have hstart : fieldOf r "start" = fieldOf q "start" := by rw [fieldOf, hr _ (by decide)]; rfl
    have hend : fieldOf q "end" = fieldOf p "end" := by rw [fieldOf, hq _ (by decide)]; rfl
    rw [hend] at hlast
    exact .mapping (hstart ▸ hfirst) hlast fun k hs he => (hr k he).trans (hq k hs)
  · rename_i v hne hv
    rw [fieldOf_of_lookup hv]
    split at h
    · rename_i hs
      obtain ⟨w, hw, h⟩ := bind_eq_ok.1 h
      obtain rfl := pure_eq_ok.1 h
      refine ⟨?_, (changed w).2⟩
      rw [(changed w).1]
      exact .value hne (Or.inr ⟨hs, (dateValue_eq_ok hs).1 hw⟩)
    · rename_i hs
      cases h
      rw [fieldOf_of_lookup hv]
      exact ⟨.value hne (respelled_self (by simpa using hs)), fun _ _ => rfl⟩
  · rename_i hv
    cases h
    rw [fieldOf_of_lookup_eq_none hv]
    exact ⟨.value (fun _ => Value.noConfusion) (respelled_self rfl), fun _ _ => rfl⟩

/-! ## Conditions -/

theorem condition_eq_ok {j : Nat} {v : Value} {c : Condition Float} :
    condition j v = .ok c ↔ ∃ before after, v = .mapping before ∧ withParts j before = .ok after ∧
      Condition.ofValue (.mapping after) = .ok c := by
  simp only [condition, bind_eq_ok, mapping_eq_ok]
  constructor
  · rintro ⟨before, rfl, after, hparts, h⟩
    refine ⟨before, after, rfl, hparts, ?_⟩
    split at h
    · rename_i hread
      rw [hread, ← pure_eq_ok.1 h]
    · cases h
    · cases judged_eq_ok.1 h
  · rintro ⟨before, after, rfl, hparts, h⟩
    refine ⟨before, rfl, after, hparts, ?_⟩
    rw [h]
    rfl

theorem conditionsFrom_eq_ok {j : Nat} {items : List Value} {cs : List (Condition Float)}
    (h : conditionsFrom j items = .ok cs) :
    List.Forall₂ (fun v c => ∃ i, condition i v = .ok c) items cs := by
  induction items generalizing j cs with
  | nil =>
    cases h
    exact .nil
  | cons v items ih =>
    obtain ⟨c, hc, h⟩ := bind_eq_ok.1 h
    obtain ⟨cs, hcs, h⟩ := bind_eq_ok.1 h
    obtain rfl := pure_eq_ok.1 h
    exact .cons ⟨j, hc⟩ (ih hcs)

/-! ## Events and documents -/

theorem eventName_eq_ok {v : Value} {s : String} :
    eventName v = .ok s ↔ v = .text s ∧ Text.isBlankText s = false := by
  constructor
  · intro h
    unfold eventName at h
    split at h
    · split at h
      · cases h
      · rename_i hs
        cases h
        exact ⟨rfl, by simpa using hs⟩
    · cases h
  · rintro ⟨rfl, hs⟩
    simp [eventName, hs]

theorem eventHead_eq_ok {entries : List (String × Value)} {h : EventHead} :
    eventHead entries = .ok h ↔
      eventName (fieldOf entries "name") = .ok h.name ∧
      word (.field "type") eventTypes (fieldOf entries "type") = .ok h.type ∧
      amount (EventPlace.field "amount") (fieldOf entries "amount") = .ok h.amount ∧
      conditions (fieldOf entries "unlockedBy") = .ok h.conditions ∧
      metadata (fieldOf entries "metadata") = .ok h.metadata := by
  simp only [eventHead, bind_eq_ok, pure_eq_ok]
  constructor
  · rintro ⟨n, hn, t, ht, a, ha, c, hc, m, hm, rfl⟩
    exact ⟨hn, ht, ha, hc, hm⟩
  · rintro ⟨hn, ht, ha, hc, hm⟩
    exact ⟨_, hn, _, ht, _, ha, _, hc, _, hm, rfl⟩

theorem fullEvent_eq_ok {h : EventHead} {entries : List (String × Value)} {e : Event Float} :
    fullEvent h entries = .ok e ↔ ∃ r ∈ Recurrence.all.map Recurrence.name,
      recurrenceField entries = .text r ∧
        e = ⟨h.name, h.type, h.amount, r, h.conditions, h.metadata⟩ := by
  simp only [fullEvent, bind_eq_ok, pure_eq_ok, word_eq_ok]
  constructor
  · rintro ⟨r, ⟨hr, hmem⟩, rfl⟩
    exact ⟨r, hmem, hr, rfl⟩
  · rintro ⟨r, hmem, hr, rfl⟩
    exact ⟨r, ⟨hr, hmem⟩, rfl⟩

theorem oneOffEvent_eq_ok {h : EventHead} {entries : List (String × Value)} {e : Event Float} :
    oneOffEvent h entries = .ok e ↔ ∃ d, Spells (fieldOf entries "date") d ∧
      e = .oneOff h.type h.name h.amount d h.conditions h.metadata := by
  simp only [oneOffEvent, bind_eq_ok, date_eq_ok]
  constructor
  · rintro ⟨o, hd, he⟩
    cases o with
    | none => cases he
    | some d => exact ⟨d, spellsIfAny_some.1 hd, (pure_eq_ok.1 he).symm⟩
  · rintro ⟨d, hd, rfl⟩
    exact ⟨some d, spellsIfAny_some.2 hd, rfl⟩

/-- The frequency of a recurring event, every month if it has none. -/
def frequencyField (entries : List (String × Value)) : Value :=
  (Value.lookup "frequency" entries).getD (.text Recurrence.monthly.name)

theorem recurringEvent_eq_ok {h : EventHead} {entries : List (String × Value)} {e : Event Float} :
    recurringEvent h entries = .ok e ↔ ∃ first last r,
      Spells (fieldOf entries "start") first ∧ SpellsIfAny (fieldOf entries "end") last ∧
      frequencyField entries = .text r ∧
      (r = Recurrence.monthly.name ∨ r = Recurrence.yearly.name) ∧
      e = ⟨h.name, h.type, h.amount, r, h.conditions ++ [.dateInRange first last], h.metadata⟩ := by
  simp only [recurringEvent, bind_eq_ok, date_eq_ok]
  constructor
  · rintro ⟨o, hfirst, he⟩
    cases o with
    | none => cases he
    | some first =>
      obtain ⟨last, hlast, he⟩ := bind_eq_ok.1 he
      refine ⟨first, last, ?_⟩
      split at he
      · rename_i hmade
        cases he
        obtain ⟨r, hr⟩ := Event.recurring_eq_ok.1 hmade
        exact ⟨r, spellsIfAny_some.1 hfirst, date_eq_ok.1 hlast, hr⟩
      · exact absurd he problemShowing_ne_ok
  · rintro ⟨first, last, r, hfirst, hlast, hr⟩
    have hmade : Event.recurring h.type h.name h.amount first last (frequencyField entries)
        h.conditions h.metadata = .ok e := Event.recurring_eq_ok.2 ⟨r, hr⟩
    rw [frequencyField] at hmade
    refine ⟨some first, spellsIfAny_some.2 hfirst, bind_eq_ok.2 ⟨last, date_eq_ok.2 hlast, ?_⟩⟩
    rw [hmade]
    rfl

theorem gatedEvent_eq_ok {h : EventHead} {e : Event Float} :
    gatedEvent h = .ok e ↔
      h.conditions ≠ [] ∧ e = .gated h.type h.name h.amount h.conditions h.metadata := by
  unfold gatedEvent
  cases h.conditions with
  | nil => exact ⟨nofun, fun he => absurd rfl he.1⟩
  | cons c cs =>
    constructor
    · intro he
      cases he
      exact ⟨List.cons_ne_nil c cs, rfl⟩
    · rintro ⟨-, rfl⟩
      rfl

theorem ofKind_eq_ok {h : EventHead} {entries : List (String × Value)} {kind : Value}
    {e : Event Float} :
    ofKind h entries kind = .ok e ↔
      kind = .text "one-off" ∧ oneOffEvent h entries = .ok e ∨
      kind = .text "recurring" ∧ recurringEvent h entries = .ok e ∨
      kind = .text "event" ∧ gatedEvent h = .ok e := by
  constructor
  · intro he
    cases kind with
    | list l => cases he
    | mapping l => cases he
    | text k =>
      obtain ⟨s, hs, he⟩ := bind_eq_ok.1 (show (word (.field "kind") kinds (.text k) >>= _) = _ from he)
      obtain ⟨⟨⟩, hmem⟩ := word_eq_ok.1 hs
      simp only [kinds, List.mem_cons, List.not_mem_nil, or_false] at hmem
      rcases hmem with rfl | rfl | rfl
      · exact Or.inr (Or.inr ⟨rfl, he⟩)
      · exact Or.inl ⟨rfl, he⟩
      · exact Or.inr (Or.inl ⟨rfl, he⟩)
    | _ =>
      obtain ⟨s, hs, -⟩ := bind_eq_ok.1 (show (word (.field "kind") kinds _ >>= _) = _ from he)
      cases (word_eq_ok.1 hs).1
  · rintro (⟨rfl, he⟩ | ⟨rfl, he⟩ | ⟨rfl, he⟩) <;> exact he

theorem event_eq_ok {v : Value} {e : Event Float} :
    event v = .ok e ↔ ∃ entries h, v = .mapping entries ∧ eventHead entries = .ok h ∧
      (fieldOf entries "kind" = .null ∧ fullEvent h entries = .ok e ∨
        fieldOf entries "kind" ≠ .null ∧ ofKind h entries (fieldOf entries "kind") = .ok e) := by
  simp only [event, bind_eq_ok, mapping_eq_ok]
  constructor
  · rintro ⟨entries, rfl, h, hh, he⟩
    refine ⟨entries, h, rfl, hh, ?_⟩
    split at he
    · exact Or.inl ⟨by assumption, he⟩
    · exact Or.inr ⟨by assumption, he⟩
  · rintro ⟨entries, h, rfl, hh, ⟨hk, he⟩ | ⟨hk, he⟩⟩
    · exact ⟨entries, rfl, h, hh, by rw [hk]; exact he⟩
    · refine ⟨entries, rfl, h, hh, ?_⟩
      split
      · contradiction
      · exact he

theorem eventsFrom_eq_ok {i : Nat} {items : List Value} {es : List (Event Float)} :
    eventsFrom i items = .ok es ↔ List.Forall₂ (fun v e => event v = .ok e) items es := by
  induction items generalizing i es with
  | nil => simp [eventsFrom, eq_comm]
  | cons v items ih =>
    rw [eventsFrom, bind_eq_ok, List.forall₂_cons_left_iff]
    simp only [bind_eq_ok, pure_eq_ok, mapError_eq_ok, ih]
    constructor
    · rintro ⟨e, he, es, hes, rfl⟩
      exact ⟨e, es, he, hes, rfl⟩
    · rintro ⟨e, es, he, hes, rfl⟩
      exact ⟨e, he, es, hes, rfl⟩

theorem documentName_eq_ok {entries : List (String × Value)} {s : String} :
    documentName entries = .ok s ↔
      (Value.lookup "name" entries).getD (.text Scenario.unnamed) = .text s ∧
        Text.isBlankText s = false := by
  unfold documentName
  generalize (Value.lookup "name" entries).getD (.text Scenario.unnamed) = v
  constructor
  · intro h
    split at h
    · split at h
      · cases h
      · rename_i hs
        cases h
        exact ⟨rfl, by simpa using hs⟩
    · cases h
  · rintro ⟨rfl, hs⟩
    simp [hs]

theorem runDefaults_eq_ok {entries : List (String × Value)} {d : RunDefaults} :
    runDefaults entries = .ok d ↔ SpellsIfAny (fieldOf entries "start") d.first ∧
      SpellsIfAny (fieldOf entries "end") d.last ∧
      amount (Place.field "initial_balance")
        ((Value.lookup "initial_balance" entries).getD (.float 0)) = .ok d.opening := by
  simp only [runDefaults, bind_eq_ok, pure_eq_ok, date_eq_ok]
  constructor
  · rintro ⟨first, hfirst, last, hlast, opening, hopening, rfl⟩
    exact ⟨hfirst, hlast, hopening⟩
  · rintro ⟨hfirst, hlast, hopening⟩
    exact ⟨_, hfirst, _, hlast, _, hopening, rfl⟩

theorem ofMapping_eq_ok {entries : List (String × Value)} {doc : Document} :
    ofMapping entries = .ok doc ↔ doc.source = mappingSource ∧
      documentName entries = .ok doc.scenario.name ∧ runDefaults entries = .ok doc.defaults ∧
      ∃ items, list (Place.field "events") (fieldOf entries "events") = .ok items ∧
        List.Forall₂ (fun v e => event v = .ok e) items doc.scenario.events := by
  have hparts : ∀ s d, parts entries = .ok (s, d) ↔ documentName entries = .ok s.name ∧
      runDefaults entries = .ok d ∧
      ∃ items, list (Place.field "events") (fieldOf entries "events") = .ok items ∧
        List.Forall₂ (fun v e => event v = .ok e) items s.events := by
    intro s d
    simp only [parts, bind_eq_ok, pure_eq_ok, eventsFrom_eq_ok]
    constructor
    · rintro ⟨n, hn, d, hd, items, hi, events, he, heq⟩
      cases heq
      exact ⟨hn, hd, items, hi, he⟩
    · rintro ⟨hn, hd, items, hi, he⟩
      exact ⟨_, hn, _, hd, items, hi, _, he, rfl⟩
  unfold ofMapping ofEntries
  split
  · rename_i s d h
    rw [← hparts, h]
    constructor
    · intro he
      cases he
      exact ⟨rfl, rfl⟩
    · rintro ⟨hs, he⟩
      cases he
      rw [← hs]
  · rename_i m h
    rw [← hparts, h]
    simp

/-! ## Other events in the same document -/

/-- The document with these events in the place of its own. -/
def withEvents (items : List Value) (entries : List (String × Value)) : List (String × Value) :=
  Value.assign "events" (.list items) entries

section WithEvents
variable (items : List Value) (entries : List (String × Value))

theorem lookup_withEvents {k : String} (hk : k ≠ "events") :
    Value.lookup k (withEvents items entries) = Value.lookup k entries := by
  rw [withEvents, Value.lookup_assign, if_neg (Ne.symm hk)]

theorem documentName_withEvents :
    documentName (withEvents items entries) = documentName entries := by
  rw [documentName, lookup_withEvents items entries (by decide)]
  rfl

theorem runDefaults_withEvents : runDefaults (withEvents items entries) = runDefaults entries := by
  simp only [runDefaults, fieldOf, lookup_withEvents items entries (show "start" ≠ "events" by decide),
    lookup_withEvents items entries (show "end" ≠ "events" by decide),
    lookup_withEvents items entries (show "initial_balance" ≠ "events" by decide)]

theorem fieldOf_withEvents : fieldOf (withEvents items entries) "events" = .list items := by
  rw [withEvents, fieldOf_assign, if_pos rfl]

end WithEvents

theorem ofMapping_withEvents_eq_ok {items : List Value} {entries : List (String × Value)}
    {doc : Document} :
    ofMapping (withEvents items entries) = .ok doc ↔ doc.source = mappingSource ∧
      documentName entries = .ok doc.scenario.name ∧ runDefaults entries = .ok doc.defaults ∧
      List.Forall₂ (fun v e => event v = .ok e) items doc.scenario.events := by
  rw [ofMapping_eq_ok, documentName_withEvents, runDefaults_withEvents, fieldOf_withEvents]
  simp [list]

end Document

end Cashflow

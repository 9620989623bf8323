import Cashflow.Proofs.Document.LoadedDates

/-!
# Shorthands in full

A one-off or recurring event is short for a full event with one condition more behind those that it
lists: on its date, or from its start to its end (`Expands`). Either way it loads as the same event or
does not load (`event_eq_ok_of_expands`), so the shorthands of a document may be expanded
(`ofMapping_of_expands`). How the full event is written beyond that does not matter (`IsInFull`).

The dates of a shorthand are read one by one, those of a condition inside its payload and only after
spelled ones were taken apart. `condition_onDate_eq_ok` and `condition_inRange_eq_ok` say that it comes
to the same.
-/

namespace Cashflow

namespace Document

/-! ## Spelled dates -/

theorem Spells.unique {v : Value} {d e : Date} (hd : Spells v d) (he : Spells v e) : d = e := by
  cases hd with
  | text hd => cases he with | text he => exact Except.ok.inj (hd.symm.trans he)
  | parts hd => cases he with | parts he => exact Except.ok.inj (hd.symm.trans he)
  | day d => cases he; rfl
  | moment d clock => cases he; rfl
  | date d => cases he; rfl

/-- A text, or a mapping with no keys but those of a date's parts. -/
inductive IsDateForm : Value → Prop where
  | text (s : String) : IsDateForm (.text s)
  | parts {l : List (String × Value)} (keys : ∀ e ∈ l, e.1 ∈ ["y", "m", "d"]) :
      IsDateForm (.mapping l)

theorem IsDateForm.fieldOf_eq_null {v : Value} (h : IsDateForm v) {k : String}
    (hk : k ∉ ["y", "m", "d"]) : fieldOf v.entries k = .null := by
  cases h with
  | text s => rfl
  | @parts l keys =>
    refine fieldOf_of_lookup_eq_none ?_
    rw [Value.lookup_eq_find]
    refine Keyed.find_of_not_mem k l fun hmem => ?_
    obtain ⟨e, he, rfl⟩ := List.mem_map.1 hmem
    exact hk (keys e he)

theorem ofValue_of_respelled {v w : Value} {d : Date} (hform : IsDateForm v) (h : Respelled v w)
    (hd : Spells v d) : Date.ofValue w = .ok d := by
  rcases h with ⟨hs, rfl⟩ | ⟨hs, e, he, rfl⟩
  · cases hform with
    | text s => cases hs
    | parts keys => cases hd with | parts hd => exact hd
  · rw [hd.unique he, Date.ofValue_toValue]

theorem lastOfValue_of_respelled {v w : Value} {o : Option Date} (hform : v = .null ∨ IsDateForm v)
    (h : Respelled v w) (ho : SpellsIfAny v o) : Condition.lastOfValue w = .ok o := by
  rcases ho with ⟨rfl, rfl⟩ | ⟨d, hd, rfl⟩
  · rcases h with ⟨-, rfl⟩ | ⟨hs, -⟩
    · rfl
    · cases hs
  · have hform : IsDateForm v := hform.resolve_left (by rintro rfl; cases hd)
    have hw := ofValue_of_respelled hform h hd
    have hmap : Condition.lastOfValue w = (Date.ofValue w).map some := by
      unfold Condition.lastOfValue
      split
      · cases hw
      · rfl
    rw [hmap, hw]
    rfl

/-- Taking dates apart fails only at a text that spells none. -/
theorem exists_withDateParts (j : Nat) {key : String} {p : List (String × Value)}
    (h : spellsDate (fieldOf p key) = true → ∃ d, Spells (fieldOf p key) d) :
    ∃ q, withDateParts j key p = .ok q := by
  unfold withDateParts
  split
  · rename_i v hv
    rw [fieldOf_of_lookup hv] at h
    split
    · rename_i hs
      obtain ⟨d, hd⟩ := h hs
      exact ⟨_, bind_eq_ok.2 ⟨_, (dateValue_eq_ok hs).2 ⟨d, hd, rfl⟩, rfl⟩⟩
    · exact ⟨p, rfl⟩
  · exact ⟨p, rfl⟩

/-- A calendar condition as it is written. -/
def calendarCondition (k : ConditionKind) (payload : Value) : List (String × Value) :=
  [("tag", .text k.tag.name), ("type", .text k.name), ("value", payload)]

theorem exists_withParts (j : Nat) (k : ConditionKind) {v : Value}
    (hvalue : spellsDate v = true → ∃ d, Spells v d)
    (hfields : ∀ key ∈ ["start", "end"], spellsDate (fieldOf v.entries key) = true →
      ∃ d, Spells (fieldOf v.entries key) d) :
    ∃ after, withParts j (calendarCondition k v) = .ok after := by
  have hlookup : Value.lookup "value" (calendarCondition k v) = some v := rfl
  unfold withParts
  rw [hlookup]
  split
  · rename_i p hp
    cases hp
    obtain ⟨q, hq⟩ := exists_withDateParts j (hfields "start" (by decide))
    have hend : fieldOf q "end" = fieldOf p "end" := by
      rw [fieldOf, (withDateParts_eq_ok hq).2 _ (by decide)]
      rfl
    obtain ⟨r, hr⟩ := exists_withDateParts j (hend ▸ hfields "end" (by decide))
    exact ⟨_, bind_eq_ok.2 ⟨q, hq, bind_eq_ok.2 ⟨r, hr, rfl⟩⟩⟩
  · rename_i w _ hw
    cases hw
    split
    · rename_i hs
      obtain ⟨d, hd⟩ := hvalue hs
      exact ⟨_, bind_eq_ok.2 ⟨_, (dateValue_eq_ok hs).2 ⟨d, hd, rfl⟩, rfl⟩⟩
    · exact ⟨_, rfl⟩
  · rename_i hnone
    cases hnone

/-- A condition is what its payload is read as, once its dates were taken apart. -/
theorem condition_of_parted {j : Nat} {k : ConditionKind} {v : Value} {c : Condition Float}
    (hparts : ∃ after, withParts j (calendarCondition k v) = .ok after)
    (h : ∀ w, Parted v w → Condition.ofPayload k (Condition.payload w) = .ok c) :
    condition j (.mapping (calendarCondition k v)) = .ok c := by
  obtain ⟨after, hparts⟩ := hparts
  obtain ⟨hvalue, hrest⟩ := withParts_eq_ok hparts
  refine condition_eq_ok.2 ⟨_, after, rfl, hparts, Condition.ofValue_eq_ok.2 ⟨k, ?_, ?_, h _ hvalue⟩⟩
  · rw [fieldOf, hrest "type" (by decide)]
    exact ConditionKind.ofName?_name k
  · rw [hrest "tag" (by decide)]
    rfl

theorem exists_parted_of_calendarCondition {j : Nat} {k : ConditionKind} {v : Value}
    {c : Condition Float} (h : condition j (.mapping (calendarCondition k v)) = .ok c) :
    ∃ w, Parted v w ∧ Condition.ofPayload k (Condition.payload w) = .ok c := by
  obtain ⟨k', hk, w, hvalue, hpayload⟩ := exists_parted_of_condition h
  have hkind : Condition.kindOf? (.text k.name) = some k := ConditionKind.ofName?_name k
  cases hkind.symm.trans hk
  exact ⟨w, hvalue, hpayload⟩

/-- The condition of a one-off event. -/
theorem condition_onDate_eq_ok {j : Nat} {v : Value} (hform : IsDateForm v) {c : Condition Float} :
    condition j (.mapping (calendarCondition .dateIs v)) = .ok c ↔
      ∃ d, Spells v d ∧ c = .dateIs d := by
  constructor
  · intro h
    obtain ⟨w, hvalue, hpayload⟩ := exists_parted_of_calendarCondition h
    obtain ⟨d, rfl, hd⟩ := eq_dateIs_of_parted hvalue hpayload
    exact ⟨d, hd, rfl⟩
  · rintro ⟨d, hd, rfl⟩
    have hfields : ∀ key ∈ ["start", "end"], spellsDate (fieldOf v.entries key) = true →
        ∃ d, Spells (fieldOf v.entries key) d := by
      intro key hkey hs
      have hnull : fieldOf v.entries key = .null := hform.fieldOf_eq_null (by
        rcases List.mem_pair.1 hkey with rfl | rfl <;> decide)
      rw [hnull] at hs
      cases hs
    refine condition_of_parted (exists_withParts j .dateIs (fun _ => ⟨d, hd⟩) hfields) fun w h => ?_
    have hdate : Date.ofValue w = .ok d := by
      cases h with
      | value _ h => exact ofValue_of_respelled hform h hd
      | mapping _ _ rest =>
        cases hd with
        | parts hd => rwa [Date.ofValue_eq_of_rest rest]
    obtain ⟨y, hy, -⟩ := bind_eq_ok.1 hdate
    have hpayload : Condition.payload w = w := by
      rw [(item_eq_ok hy).1]
      exact Condition.payload_mapping _
    rw [hpayload, Condition.ofPayload, hdate]
    rfl

/-- The payload of a range, the end left out if there is none. -/
def rangePayload (start : Value) (stop : Option Value) : Value :=
  .mapping (("start", start) :: (stop.map fun v => ("end", v)).toList)

theorem fieldOf_rangePayload (start : Value) (stop : Option Value) :
    fieldOf (rangePayload start stop).entries "start" = start ∧
      fieldOf (rangePayload start stop).entries "end" = stop.getD .null := by
  cases stop <;> exact ⟨rfl, rfl⟩

/-- The condition of a recurring event. -/
theorem condition_inRange_eq_ok {j : Nat} {start : Value} {stop : Option Value}
    (hstart : IsDateForm start) (hstop : stop.getD .null = .null ∨ IsDateForm (stop.getD .null))
    {c : Condition Float} :
    condition j (.mapping (calendarCondition .dateInRange (rangePayload start stop))) = .ok c ↔
      ∃ first last, Spells start first ∧ SpellsIfAny (stop.getD .null) last ∧
        c = .dateInRange first last := by
  obtain ⟨hfirst, hlast⟩ := fieldOf_rangePayload start stop
  constructor
  · intro h
    obtain ⟨w, hvalue, hpayload⟩ := exists_parted_of_calendarCondition h
    obtain ⟨first, last, rfl, hd, he⟩ := eq_dateInRange_of_parted hvalue hpayload
    rw [hfirst] at hd
    rw [hlast] at he
    exact ⟨first, last, hd, he, rfl⟩
  · rintro ⟨first, last, hd, he, rfl⟩
    have hfields : ∀ key ∈ ["start", "end"],
        spellsDate (fieldOf (rangePayload start stop).entries key) = true →
        ∃ d, Spells (fieldOf (rangePayload start stop).entries key) d := by
      intro key hkey
      rcases List.mem_pair.1 hkey with rfl | rfl
      · rw [hfirst]
        exact fun _ => ⟨first, hd⟩
      · rw [hlast]
        intro hs
        rcases he with ⟨hnull, -⟩ | ⟨d, hd, -⟩
        · rw [hnull] at hs
          cases hs
        · exact ⟨d, hd⟩
    refine condition_of_parted (exists_withParts j _ nofun hfields) fun w h => ?_
    cases h with
    | value plain _ => exact absurd rfl (plain _)
    | @mapping p q hfirst' hlast' _ =>
      have hfirst' : Respelled start (fieldOf q "start") := hfirst ▸ hfirst'
      have hlast' : Respelled (stop.getD .null) (fieldOf q "end") := hlast ▸ hlast'
      have hdate := ofValue_of_respelled hstart hfirst' hd
      have hend := lastOfValue_of_respelled hstop hlast' he
      have hitem : (Value.mapping q).item "start" = .ok (fieldOf q "start") :=
        item_of_fieldOf rfl fun hnull => by
          rw [hnull] at hdate
          cases hdate
      rw [Condition.payload_mapping, Condition.ofPayload]
      show ((Value.mapping q).fieldOrNull "end" >>= fun _ => _) = _
      have hnull : (Value.mapping q).fieldOrNull "end" = .ok (fieldOf q "end") := rfl
      rw [hnull, ok_bind, hitem, ok_bind, hdate, ok_bind, hend, ok_bind]
      rfl

/-! ## Events -/

/-- An event in full: with no kind, a recurrence, and one condition more behind those of the other. It
may keep or lose the fields that only shorthands have. -/
structure IsInFull (recurrence : String) (c entries full : List (String × Value)) : Prop where
  kind : fieldOf full "kind" = .null
  word : recurrenceField full = .text recurrence
  conditions : fieldOf full "unlockedBy" =
    .list ((fieldOf entries "unlockedBy").items ++ [.mapping c])
  name : fieldOf full "name" = fieldOf entries "name"
  type : fieldOf full "type" = fieldOf entries "type"
  amount : fieldOf full "amount" = fieldOf entries "amount"
  metadata : fieldOf full "metadata" = fieldOf entries "metadata"

/-- A shorthand and a full event that it is short for. Its own conditions may be any list, or be left
out. -/
inductive Expands : Value → Value → Prop where
  | oneOff {l full : List (String × Value)} (kind : fieldOf l "kind" = .text "one-off")
      (date : IsDateForm (fieldOf l "date"))
      (conditions : fieldOf l "unlockedBy" = .null ∨ ∃ items, fieldOf l "unlockedBy" = .list items)
      (expanded : IsInFull Recurrence.once.name
        (calendarCondition .dateIs (fieldOf l "date")) l full) :
      Expands (.mapping l) (.mapping full)
  | recurring {l full : List (String × Value)} {frequency : String}
      (kind : fieldOf l "kind" = .text "recurring") (start : IsDateForm (fieldOf l "start"))
      (stop : fieldOf l "end" = .null ∨ IsDateForm (fieldOf l "end"))
      (word : frequencyField l = .text frequency)
      (known : frequency = Recurrence.monthly.name ∨ frequency = Recurrence.yearly.name)
      (conditions : fieldOf l "unlockedBy" = .null ∨ ∃ items, fieldOf l "unlockedBy" = .list items)
      (expanded : IsInFull frequency (calendarCondition .dateInRange
        (rangePayload (fieldOf l "start") (Value.lookup "end" l))) l full) :
      Expands (.mapping l) (.mapping full)

theorem conditionsFrom_concat_eq_ok {j : Nat} {items : List Value} {v : Value}
    {cs : List (Condition Float)} :
    conditionsFrom j (items ++ [v]) = .ok cs ↔ ∃ before c, conditionsFrom j items = .ok before ∧
      condition (j + items.length) v = .ok c ∧ cs = before ++ [c] := by
  induction items generalizing j cs with
  | nil =>
    simp only [List.nil_append, List.length_nil, Nat.add_zero, conditionsFrom, bind_eq_ok, pure_eq_ok]
    constructor
    · rintro ⟨c, hc, _, ⟨⟩, rfl⟩
      exact ⟨[], c, rfl, hc, rfl⟩
    · rintro ⟨_, c, ⟨⟩, hc, rfl⟩
      exact ⟨c, hc, [], rfl, rfl⟩
  | cons w items ih =>
    have hlen : j + (w :: items).length = j + 1 + items.length := by
      rw [List.length_cons]
      omega
    rw [hlen]
    simp only [List.cons_append, conditionsFrom, bind_eq_ok, pure_eq_ok, ih]
    constructor
    · rintro ⟨d, hd, _, ⟨before, c, hbefore, hc, rfl⟩, rfl⟩
      exact ⟨d :: before, c, ⟨d, hd, before, hbefore, rfl⟩, hc, rfl⟩
    · rintro ⟨_, c, ⟨d, hd, before, hbefore, rfl⟩, hc, rfl⟩
      exact ⟨d, hd, before ++ [c], ⟨before, c, hbefore, hc, rfl⟩, rfl⟩

theorem conditions_concat_eq_ok {v w : Value}
    (hv : v = .null ∨ ∃ items, v = .list items) {cs : List (Condition Float)} :
    conditions (.list (v.items ++ [w])) = .ok cs ↔ ∃ before c, conditions v = .ok before ∧
      condition v.items.length w = .ok c ∧ cs = before ++ [c] := by
  have hown : conditions v = conditionsFrom 0 v.items := by
    rcases hv with rfl | ⟨items, rfl⟩ <;> rfl
  have hmore : conditions (.list (v.items ++ [w])) = conditionsFrom 0 (v.items ++ [w]) := rfl
  rw [hown, hmore, conditionsFrom_concat_eq_ok, Nat.zero_add]

/-- The event in full is the one that the shorthand has in common with it, and the condition. -/
theorem event_eq_ok_of_isInFull {recurrence : String} {c l full : List (String × Value)}
    {e : Event Float} (hfull : IsInFull recurrence c l full)
    (hrecurrence : recurrence ∈ Recurrence.all.map Recurrence.name)
    (hlist : fieldOf l "unlockedBy" = .null ∨ ∃ items, fieldOf l "unlockedBy" = .list items) :
    event (.mapping full) = .ok e ↔ ∃ h added, eventHead l = .ok h ∧
      condition (fieldOf l "unlockedBy").items.length (.mapping c) = .ok added ∧
      e = ⟨h.name, h.type, h.amount, recurrence, h.conditions ++ [added], h.metadata⟩ := by
  have hhead (h : EventHead) : eventHead full = .ok h ↔ ∃ before added,
      eventHead l = .ok { h with conditions := before } ∧
      condition (fieldOf l "unlockedBy").items.length (.mapping c) = .ok added ∧
      h.conditions = before ++ [added] := by
    simp only [eventHead_eq_ok, hfull.name, hfull.type, hfull.amount, hfull.conditions, hfull.metadata,
      conditions_concat_eq_ok hlist]
    constructor
    · rintro ⟨hn, ht, ha, ⟨before, added, hb, hadded, hcs⟩, hm⟩
      exact ⟨before, added, ⟨hn, ht, ha, hb, hm⟩, hadded, hcs⟩
    · rintro ⟨before, added, ⟨hn, ht, ha, hb, hm⟩, hadded, hcs⟩
      exact ⟨hn, ht, ha, ⟨before, added, hb, hadded, hcs⟩, hm⟩
  rw [event_eq_ok]
  constructor
  · rintro ⟨entries, h, hentries, hh, ⟨-, he⟩ | ⟨hne, -⟩⟩
    · cases hentries
      obtain ⟨r, -, hr, rfl⟩ := fullEvent_eq_ok.1 he
      cases hfull.word.symm.trans hr
      obtain ⟨before, added, hl, hadded, hcs⟩ := (hhead h).1 hh
      refine ⟨_, added, hl, hadded, ?_⟩
      rw [hcs]
    · cases hentries
      exact absurd hfull.kind hne
  · rintro ⟨h, added, hl, hadded, rfl⟩
    let whole : EventHead := { h with conditions := h.conditions ++ [added] }
    have hwhole : eventHead full = .ok whole := (hhead whole).2 ⟨h.conditions, added, hl, hadded, rfl⟩
    exact ⟨full, whole, rfl, hwhole,
      Or.inl ⟨hfull.kind, fullEvent_eq_ok.2 ⟨recurrence, hrecurrence, hfull.word, rfl⟩⟩⟩

theorem event_eq_ok_of_expands {v w : Value} (h : Expands v w) (e : Event Float) :
    event v = .ok e ↔ event w = .ok e := by
  have shorthand {l : List (String × Value)} (hk : fieldOf l "kind" ≠ .null) :
      event (.mapping l) = .ok e ↔
        ∃ head, eventHead l = .ok head ∧ ofKind head l (fieldOf l "kind") = .ok e := by
    rw [event_eq_ok]
    constructor
    · rintro ⟨entries, head, hl, hhead, ⟨hnull, -⟩ | ⟨-, he⟩⟩
      · cases hl
        exact absurd hnull hk
      · cases hl
        exact ⟨head, hhead, he⟩
    · rintro ⟨head, hhead, he⟩
      exact ⟨l, head, rfl, hhead, Or.inr ⟨hk, he⟩⟩
  cases h with
  | @oneOff l full kind date conditions expanded =>
    rw [shorthand (by rw [kind]; exact Value.noConfusion),
      event_eq_ok_of_isInFull expanded (by decide) conditions, kind]
    simp only [condition_onDate_eq_ok date]
    constructor
    · rintro ⟨head, hhead, he⟩
      obtain ⟨d, hd, rfl⟩ := oneOffEvent_eq_ok.1 he
      exact ⟨head, .dateIs d, hhead, ⟨d, hd, rfl⟩, rfl⟩
    · rintro ⟨head, _, hhead, ⟨d, hd, rfl⟩, rfl⟩
      exact ⟨head, hhead, oneOffEvent_eq_ok.2 ⟨d, hd, rfl⟩⟩
  | @recurring l full frequency kind start stop word known conditions expanded =>
    have hmem : frequency ∈ Recurrence.all.map Recurrence.name := by
      rcases known with rfl | rfl <;> decide
    rw [shorthand (by rw [kind]; exact Value.noConfusion),
      event_eq_ok_of_isInFull expanded hmem conditions, kind]
    simp only [condition_inRange_eq_ok start stop]
    constructor
    · rintro ⟨head, hhead, he⟩
      obtain ⟨first, last, r, hfirst, hlast, hr, -, rfl⟩ := recurringEvent_eq_ok.1 he
      cases word.symm.trans hr
      exact ⟨head, _, hhead, ⟨first, last, hfirst, hlast, rfl⟩, rfl⟩
    · rintro ⟨head, _, hhead, ⟨first, last, hfirst, hlast, rfl⟩, rfl⟩
      exact ⟨head, hhead,
        recurringEvent_eq_ok.2 ⟨first, last, frequency, hfirst, hlast, word, known, rfl⟩⟩

/-! ## Documents -/

/-- The shorthands of a document may be expanded, one or more of them: the document loads if and only
if it did, and then as the same. -/
theorem ofMapping_of_expands {entries : List (String × Value)} {before after : List Value}
    (h : List.Forall₂ (fun v w => w = v ∨ Expands v w) before after) (doc : Document) :
    ofMapping (withEvents before entries) = .ok doc ↔
      ofMapping (withEvents after entries) = .ok doc := by
  have hevents (es : List (Event Float)) : List.Forall₂ (fun v e => event v = .ok e) before es ↔
      List.Forall₂ (fun v e => event v = .ok e) after es := by
    induction h generalizing es with
    | nil => exact Iff.rfl
    | @cons v w before after hvw _ ih =>
      have hvw (e : Event Float) : event v = .ok e ↔ event w = .ok e := by
        rcases hvw with rfl | hvw
        · exact Iff.rfl
        · exact event_eq_ok_of_expands hvw e
      simp only [List.forall₂_cons_left_iff, hvw, ih]
  rw [ofMapping_withEvents_eq_ok, ofMapping_withEvents_eq_ok, hevents]

/-- A move in January, and a rent from then to June behind it. -/
def shortEvents : List Value :=
  [.mapping [("kind", .text "one-off"), ("name", .text "Move"), ("type", .text "expense"),
    ("amount", .float 300), ("date", .mapping [("y", .int 2025), ("m", .text " 01")]),
    ("unlockedBy", .null)],
  .mapping [("kind", .text "recurring"), ("name", .text "Rent"), ("type", .text "expense"),
    ("amount", .float 900), ("start", .text "2025-1"),
    ("end", .mapping [("y", .int 2025), ("m", .int 6)]),
    ("unlockedBy", .list [.mapping [("type", .text "event-happened"),
      ("value", .mapping [("eventName", .text "Move")])]]),
    ("metadata", .mapping [("furnished", .bool true)])]]

def fullEvents : List Value :=
  [.mapping [("name", .text "Move"), ("type", .text "expense"), ("amount", .float 300),
    ("recurrence", .text "once"),
    ("unlockedBy", .list [.mapping [("tag", .text "cashflow"), ("type", .text "date-is"),
      ("value", .mapping [("y", .int 2025), ("m", .text " 01")])]])],
  .mapping [("name", .text "Rent"), ("type", .text "expense"), ("amount", .float 900),
    ("recurrence", .mapping [("type", .text "monthly")]),
    ("unlockedBy", .list [.mapping [("type", .text "event-happened"),
      ("value", .mapping [("eventName", .text "Move")])],
      .mapping [("tag", .text "cashflow"), ("type", .text "date-in-range"),
        ("value", .mapping [("start", .text "2025-1"),
          ("end", .mapping [("y", .int 2025), ("m", .int 6)])])]]),
    ("metadata", .mapping [("furnished", .bool true)])]]

def movedDocument : Document where
  scenario := ⟨"Unnamed Scenario",
    [⟨"Move", "expense", 300, "once", [.dateIs ⟨2025, 1, 1⟩], none⟩,
    ⟨"Rent", "expense", 900, "monthly",
      [.eventHappened "Move", .dateInRange ⟨2025, 1, 1⟩ (some ⟨2025, 6, 1⟩)],
      some (.mapping [("furnished", .text "True")])⟩]⟩
  source := "<mapping>"

theorem ofMapping_of_expands_rent :
    List.Forall₂ (fun v w => w = v ∨ Expands v w) shortEvents fullEvents ∧
      ofMapping (withEvents shortEvents []) = .ok movedDocument ∧
      ofMapping (withEvents fullEvents []) = .ok movedDocument := by
  have hload : ofMapping (withEvents shortEvents []) = .ok movedDocument := rfl
  have hexpands : List.Forall₂ (fun v w => w = v ∨ Expands v w) shortEvents fullEvents := by
    refine .cons (Or.inr ?_) (.cons (Or.inr ?_) .nil)
    · exact .oneOff rfl (.parts (by decide)) (Or.inl rfl) ⟨rfl, rfl, rfl, rfl, rfl, rfl, rfl⟩
    · exact .recurring rfl (.text "2025-1") (Or.inr (.parts (by decide))) rfl (Or.inl rfl)
        (Or.inr ⟨_, rfl⟩) ⟨rfl, rfl, rfl, rfl, rfl, rfl, rfl⟩
  exact ⟨hexpands, hload, (ofMapping_of_expands hexpands movedDocument).1 hload⟩

end Document

end Cashflow

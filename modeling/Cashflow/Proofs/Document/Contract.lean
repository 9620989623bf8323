import Cashflow.Proofs.Document.Reading

/-!
# What escapes from the loader

A document that does not load is refused with a problem and its place, but for some faults that the
loader does not judge. A document can give rise to one only where it has a hazard
(`Document.hasHazard`):

* a whole number beyond the doubles where an amount is read (`Value.isTooLarge`);
* an infinite year, month or day (`Value.hasInfinitePart`);
* a range or balance condition whose payload is neither a mapping nor a spelled date, nor counts as
  absent (`Value.isUnkeyed`);
* a list or a mapping for a kind;
* a whole number too long to be written where its text is needed.

`Guarded` is the invariant: a reading with a hazard returns nothing, and what is not judged comes from
a hazard. Each reader has one lemma that names its hazards, put together with `Guarded.bind`. A
hazard is always fatal, so that only the order of reading decides between a problem and an escape
(`ofMappingWithin_contract`).
-/

namespace Cashflow

/-! ## Guarded readings -/

/-- With a hazard the reading returns nothing; each error is judged, or strays because of one. -/
structure Guarded {ε β : Type} (judged stray : ε → Prop) (hazard : Bool) (r : Except ε β) : Prop where
  refuses : hazard = true → ∀ b, r ≠ .ok b
  contained : ∀ e, r = .error e → judged e ∨ hazard = true ∧ stray e

namespace Guarded
variable {ε φ α β : Type} {judged stray : ε → Prop} {hazard later : Bool} {r : Except ε α}

theorem ok (a : α) : Guarded judged stray false (.ok a) := by
  refine ⟨fun h => ?_, fun e h => ?_⟩
  · cases h
  · cases h

theorem error {e : ε} (h : judged e) : Guarded judged stray hazard (.error e : Except ε α) := by
  refine ⟨fun _ b hb => ?_, fun e' he => ?_⟩
  · cases hb
  · cases he
    exact Or.inl h

theorem strays {e : ε} (h : stray e) : Guarded judged stray true (.error e : Except ε α) := by
  refine ⟨fun _ b hb => ?_, fun e' he => ?_⟩
  · cases hb
  · cases he
    exact Or.inr ⟨rfl, h⟩

theorem eq_false {a : α} (h : Guarded judged stray hazard (.ok a : Except ε α)) : hazard = false := by
  cases hazard with
  | false => rfl
  | true => exact absurd rfl (h.refuses rfl a)

/-- The hazards of two steps are those of both, the second seen only when the first returns. -/
theorem bind {k : α → Except ε β} (hr : Guarded judged stray hazard r)
    (hk : ∀ a, r = .ok a → Guarded judged stray later (k a)) :
    Guarded judged stray (hazard || later) (r >>= k) := by
  cases r with
  | error e =>
    refine ⟨fun _ b hb => ?_, fun e' he => ?_⟩
    · cases hb
    · cases he
      rcases hr.contained e rfl with h | ⟨h, hs⟩
      · exact Or.inl h
      · exact Or.inr ⟨by rw [h]; rfl, hs⟩
  | ok a =>
    rw [hr.eq_false, Bool.false_or]
    exact hk a rfl

/-- After a first step without hazards. -/
theorem step {k : α → Except ε β} (hr : Guarded judged stray false r)
    (hk : ∀ a, r = .ok a → Guarded judged stray hazard (k a)) :
    Guarded judged stray hazard (r >>= k) :=
  hr.bind hk

/-- Before a last step without hazards. -/
theorem last {k : α → Except ε β} (hr : Guarded judged stray hazard r)
    (hk : ∀ a, r = .ok a → Guarded judged stray false (k a)) :
    Guarded judged stray hazard (r >>= k) := by
  have := hr.bind hk
  rwa [Bool.or_false] at this

theorem then_ok (hr : Guarded judged stray hazard r) (k : α → β) :
    Guarded judged stray hazard (r >>= fun a => .ok (k a)) :=
  hr.last fun a _ => ok (k a)

theorem mapError {judged' stray' : φ → Prop} (f : ε → φ) (hr : Guarded judged stray hazard r)
    (hj : ∀ e, judged e → judged' (f e)) (hs : ∀ e, stray e → stray' (f e)) :
    Guarded judged' stray' hazard (r.mapError f) := by
  cases r with
  | ok a =>
    refine ⟨fun h b _ => hr.refuses h a rfl, fun e he => ?_⟩
    cases he
  | error e =>
    refine ⟨fun _ b hb => ?_, fun e' he => ?_⟩
    · cases hb
    · cases he
      rcases hr.contained e rfl with h | ⟨h, h'⟩
      · exact Or.inl (hj e h)
      · exact Or.inr ⟨h, hs e h'⟩

end Guarded

/-! ## Faults of values -/

namespace ValueFault

/-- Faults that the loader turns into problems. -/
def IsJudged (f : ValueFault) : Prop := f.family = .key ∨ f.family = .type ∨ f.family = .value

/-- Faults that it lets through wherever they come up. -/
def IsStray (f : ValueFault) : Prop := f = .wholeTooLarge ∨ f = .infiniteWhole ∨ ∃ t, f = .noLookup t

/-- Faults that it lets through at all. -/
def Escapes (f : ValueFault) : Prop := f.IsStray ∨ f = .longNumber ∨ ∃ t, f = .unhashable t

theorem isJudged_of_key {f : ValueFault} (h : f.family = .key) : f.IsJudged := Or.inl h

theorem isJudged_of_type {f : ValueFault} (h : f.family = .type) : f.IsJudged := Or.inr (Or.inl h)

theorem isJudged_of_value {f : ValueFault} (h : f.family = .value) : f.IsJudged := Or.inr (Or.inr h)

theorem isStray_wholeTooLarge : IsStray .wholeTooLarge := Or.inl rfl

theorem isStray_infiniteWhole : IsStray .infiniteWhole := Or.inr (Or.inl rfl)

theorem isStray_noLookup (t : String) : IsStray (.noLookup t) := Or.inr (Or.inr ⟨t, rfl⟩)

end ValueFault

open ValueFault

/-- The hazards of a computation on values. -/
abbrev GuardedValue {β : Type} (hazard : Bool) (r : Except ValueFault β) : Prop :=
  Guarded IsJudged IsStray hazard r

namespace Value

/-- Whole numbers beyond the doubles. -/
def isTooLarge : Value → Bool
  | .int i => (Decimal.ofInt? i).isNone
  | _ => false

def isInfinite : Value → Bool
  | .float x =>
    match Decimal.read x with
    | .infinite _ => true
    | _ => false
  | _ => false

/-- Parts of a date, one of them infinite. -/
def hasInfinitePart (v : Value) : Bool :=
  (Document.fieldOf v.entries "y").isInfinite ||
    ((Document.fieldOf v.entries "m").isInfinite || (Document.fieldOf v.entries "d").isInfinite)

/-- Neither a mapping nor a value that counts as the empty one. -/
def isUnkeyed : Value → Bool
  | .mapping _ => false
  | v => v.isTruthy

theorem guarded_written (v : Value) : GuardedValue false v.written := by
  unfold written
  split
  · exact .error (isJudged_of_value rfl)
  · exact .ok _

theorem guarded_hashed (v : Value) : GuardedValue false v.hashed := by
  cases v with
  | list l => exact .error (isJudged_of_type rfl)
  | mapping l => exact .error (isJudged_of_type rfl)
  | _ => exact .ok _

theorem guarded_whole (v : Value) : GuardedValue v.isInfinite v.whole := by
  cases v with
  | int i => exact .ok _
  | bool b => exact .ok _
  | float x =>
    simp only [whole, isInfinite]
    cases Decimal.read x with
    | undefined => exact .error (isJudged_of_value rfl)
    | infinite n => exact .strays isStray_infiniteWhole
    | finite n m e => exact .ok _
  | text s =>
    show GuardedValue false ((Text.readInteger s.toList).mapError _)
    cases Text.readInteger s.toList with
    | ok i => exact .ok _
    | error f => cases f <;> exact .error (isJudged_of_value rfl)
  | _ => exact .error (isJudged_of_type rfl)

theorem guarded_number (v : Value) : GuardedValue v.isTooLarge v.number := by
  cases v with
  | int i =>
    simp only [number, ofWhole, isTooLarge]
    cases Decimal.ofInt? i with
    | none => exact .strays isStray_wholeTooLarge
    | some x => exact .ok _
  | bool b => exact .ok _
  | float x => exact .ok _
  | text s =>
    simp only [number, isTooLarge]
    split
    · exact .ok _
    · exact .error (isJudged_of_value rfl)
  | _ => exact .error (isJudged_of_type rfl)

theorem guarded_item (k : String) (v : Value) : GuardedValue false (v.item k) := by
  cases v with
  | mapping entries =>
    simp only [item]
    split
    · exact .ok _
    · exact .error (isJudged_of_key rfl)
  | list l => exact .error (isJudged_of_type rfl)
  | text s => exact .error (isJudged_of_type rfl)
  | _ => exact .error (isJudged_of_type rfl)

/-- Only mappings have items under keys. -/
theorem guarded_part (k : String) (v : Value) :
    GuardedValue (Document.fieldOf v.entries k).isInfinite (v.item k >>= whole) := by
  refine (guarded_item k v).step fun w hw => ?_
  rw [(Document.item_eq_ok hw).2]
  exact guarded_whole _

theorem guarded_dayPart (entries : List (String × Value)) :
    GuardedValue (Document.fieldOf entries "d").isInfinite
      (((lookup "d" entries).getD (.int 1)).whole) := by
  cases h : lookup "d" entries with
  | none =>
    rw [Document.fieldOf_of_lookup_eq_none h]
    exact .ok _
  | some w =>
    rw [Document.fieldOf_of_lookup h]
    exact guarded_whole w

end Value

open Value

theorem Date.guarded_ofValue (v : Value) : GuardedValue v.hasInfinitePart (Date.ofValue v) := by
  have hsteps : Date.ofValue v = (v.item "y" >>= whole) >>= fun year =>
      (v.item "m" >>= whole) >>= fun month =>
      v.field? "d" >>= fun d => (d.getD (.int 1)).whole >>= fun day => .ok ⟨year, month, day⟩ := by
    simp only [Date.ofValue, bind_assoc]
    rfl
  rw [hsteps]
  refine (guarded_part "y" v).bind fun year hy => (guarded_part "m" v).bind fun month _ => ?_
  -- A year was found, so the value is a mapping and the day may be asked for.
  obtain ⟨w, hw, -⟩ := bind_eq_ok.1 hy
  rw [(Document.item_eq_ok hw).1]
  exact (guarded_dayPart _).then_ok _

/-! ## Conditions -/

namespace Condition

/-- The hazards of a payload for a condition of the kind `k`. -/
def payloadHasHazard (k : ConditionKind) (v : Value) : Bool :=
  match k with
  | .dateIs => v.hasInfinitePart
  | .dateInRange =>
    v.isUnkeyed || ((Document.fieldOf v.entries "start").hasInfinitePart ||
      (Document.fieldOf v.entries "end").hasInfinitePart)
  | .networthIsAbove => v.isUnkeyed || (Document.fieldOf v.entries "amount").isTooLarge
  | .eventHappened => false
  | .incomeIsAbove => (Document.fieldOf v.entries "amount").isTooLarge

/-- The hazards of a condition mapping: those that its payload has for its kind. -/
def hasHazard (entries : List (String × Value)) : Bool :=
  match kindOf? (Document.fieldOf entries "type") with
  | none => false
  | some k => payloadHasHazard k (Document.fieldOf entries "value")

theorem payload_eq (v : Value) :
    payload v = .mapping v.entries ∧ v.isUnkeyed = false ∨
      payload v = v ∧ v.isUnkeyed = true ∧ ∀ l, v ≠ .mapping l := by
  have hfalsy : v.isTruthy = false → v.entries = [] := by
    intro h
    cases v with
    | mapping l => cases l with
      | nil => rfl
      | cons e l => cases h
    | _ => rfl
  by_cases ht : v.isTruthy = true
  · rw [payload, if_pos ht]
    cases v with
    | mapping l => exact Or.inl ⟨rfl, rfl⟩
    | _ => exact Or.inr ⟨rfl, ht, fun l => Value.noConfusion⟩
  · have hfalse : v.isTruthy = false := by simpa using ht
    rw [payload, if_neg ht, hfalsy hfalse]
    refine Or.inl ⟨rfl, ?_⟩
    cases v with
    | mapping l => rfl
    | _ => exact hfalse

theorem guarded_lastOfValue (v : Value) : GuardedValue v.hasInfinitePart (lastOfValue v) := by
  have hmap : ∀ w : Value, GuardedValue w.hasInfinitePart ((Date.ofValue w).map some) :=
    fun w => (Date.guarded_ofValue w).then_ok some
  cases v with
  | null => exact .ok none
  | _ => exact hmap _

theorem guarded_item_bind {β : Type} {hazard : Bool} {entries : List (String × Value)} (k : String)
    {f : Value → Except ValueFault β} (h : GuardedValue hazard (f (Document.fieldOf entries k))) :
    GuardedValue hazard ((Value.mapping entries).item k >>= f) := by
  refine (guarded_item k _).step fun w hw => ?_
  rw [(Document.item_eq_ok hw).2]
  exact h

theorem guarded_ofPayload (k : ConditionKind) (v : Value) :
    GuardedValue (payloadHasHazard k v) (ofPayload k (payload v)) := by
  rcases payload_eq v with ⟨hp, hkeyed⟩ | ⟨hp, hunkeyed, hne⟩
  · rw [hp]
    cases k with
    | dateIs => exact (Date.guarded_ofValue (.mapping v.entries)).then_ok _
    | dateInRange =>
      rw [payloadHasHazard, hkeyed]
      refine guarded_item_bind "start" ?_
      exact (Date.guarded_ofValue _).bind fun first _ => (guarded_lastOfValue _).then_ok _
    | networthIsAbove =>
      rw [payloadHasHazard, hkeyed]
      refine (guarded_written _).bind fun event _ => guarded_item_bind "amount" ?_
      exact (guarded_number _).then_ok _
    | eventHappened => exact guarded_item_bind "eventName" ((guarded_written _).then_ok _)
    | incomeIsAbove =>
      refine guarded_item_bind "eventName" ?_
      refine (guarded_written _).step fun event _ => guarded_item_bind "amount" ?_
      exact (guarded_number _).then_ok _
  · rw [hp]
    -- Without keys, a look-up with a default strays and one without is judged.
    have hfield (k : String) : v.field? k = .error (.noLookup v.typeName) := by
      cases v with
      | mapping l => exact absurd rfl (hne l)
      | _ => rfl
    have hitem {β : Type} {hazard : Bool} (k : String) (f : Value → Except ValueFault β) :
        GuardedValue hazard (v.item k >>= f) := by
      exact (guarded_item k v).step fun w hw => absurd (Document.item_eq_ok hw).1 (hne _)
    cases k with
    | dateIs => exact (Date.guarded_ofValue v).then_ok _
    | dateInRange =>
      rw [payloadHasHazard, hunkeyed, ofPayload, fieldOrNull, hfield]
      exact .strays (isStray_noLookup _)
    | networthIsAbove =>
      rw [payloadHasHazard, hunkeyed, ofPayload, hfield]
      exact .strays (isStray_noLookup _)
    | eventHappened => exact hitem "eventName" _
    | incomeIsAbove => exact hitem "eventName" _

end Condition

/-! ## Faults of conditions -/

namespace Fault

def IsJudged : Fault → Prop
  | .config _ => True
  | .value f => f.IsJudged

def IsStray : Fault → Prop
  | .config _ => False
  | .value f => f.IsStray

end Fault

theorem guarded_ofValueFault {β : Type} {hazard : Bool} {r : Except ValueFault β}
    (h : GuardedValue hazard r) : Guarded Fault.IsJudged Fault.IsStray hazard (ofValueFault r) :=
  h.mapError Fault.value (fun _ hj => hj) fun _ hs => hs

theorem Condition.guarded_ofValue (entries : List (String × Value)) :
    Guarded Fault.IsJudged Fault.IsStray (hasHazard entries) (ofValue (.mapping entries)) := by
  -- A fault of a kind or a tag is judged, whether or not its wording can be written.
  have refused {hazard : Bool} (v : Value) (f : String → ConfigFault) :
      Guarded Fault.IsJudged Fault.IsStray hazard
        (ofValueFault v.written >>= fun t => (.error (.config (f t)) : Except Fault (Condition Float))) := by
    exact (guarded_ofValueFault (guarded_written v)).step fun t _ => .error trivial
  have htype : (Value.mapping entries).fieldOrNull "type" = .ok (Document.fieldOf entries "type") := rfl
  rw [ofValue, hasHazard, htype]
  generalize Document.fieldOf entries "type" = type
  refine (guarded_ofValueFault (guarded_hashed type)).step fun key hkey => ?_
  obtain rfl : key = type := by
    cases type with
    | list l => cases hkey
    | mapping l => cases hkey
    | _ => exact (Except.ok.inj hkey).symm
  cases kindOf? key with
  | none => exact refused key _
  | some k =>
    dsimp only
    show Guarded _ _ _ (ite _ _ _)
    split
    · exact guarded_ofValueFault (guarded_ofPayload k _)
    · exact refused _ _

/-! ## Parts of documents -/

namespace Misread
variable {π : Type}

def IsProblem (m : Misread π) : Prop := ∃ place p, m = .problem place p

def IsEscape (m : Misread π) : Prop := ∃ f : ValueFault, m = .escaped (.value f) ∧ f.Escapes

end Misread

namespace Document
variable {π β : Type}

/-- The hazards of a part of a document. -/
abbrev GuardedRead (hazard : Bool) (r : Read π β) : Prop :=
  Guarded Misread.IsProblem Misread.IsEscape hazard r

theorem guarded_problem {hazard : Bool} (place : π) (p : Problem) :
    GuardedRead hazard (problem place p : Read π β) :=
  .error ⟨place, p, rfl⟩

theorem guarded_escape {f : ValueFault} (h : f.Escapes) :
    GuardedRead true (escape f : Read π β) :=
  .strays ⟨f, rfl, h⟩

theorem guarded_problemShowing (place : π) (v : Value) (p : Problem) :
    GuardedRead v.isUnwritten (problemShowing place v p : Read π β) := by
  unfold problemShowing
  split
  · rename_i h
    rw [h]
    exact guarded_escape (Or.inr (Or.inl rfl))
  · exact guarded_problem place p

theorem guarded_judged {hazard : Bool} {r : Except ValueFault β} (place : π)
    (p : ValueFault → Problem) (h : GuardedValue hazard r) : GuardedRead hazard (judged place p r) := by
  cases r with
  | ok b =>
    rw [h.eq_false]
    exact .ok b
  | error f =>
    rcases h.contained f rfl with hj | ⟨rfl, hs⟩
    · rcases hj with hf | hf | hf <;> simp only [judged, hf] <;> exact guarded_problem place _
    · rcases hs with rfl | rfl | ⟨t, rfl⟩
      · exact guarded_escape (Or.inl isStray_wholeTooLarge)
      · exact guarded_escape (Or.inl isStray_infiniteWhole)
      · exact guarded_escape (Or.inl (isStray_noLookup t))

theorem guarded_date (place : π) (v : Value) : GuardedRead v.hasInfinitePart (date place v) := by
  cases v with
  | text s =>
    simp only [date]
    split
    · exact .ok _
    · exact guarded_problem place _
  | mapping l => exact (guarded_judged place _ (Date.guarded_ofValue (.mapping l))).then_ok some
  | null => exact .ok _
  | date d => exact .ok _
  | day d => exact .ok _
  | moment d clock => exact .ok _
  | _ => exact guarded_problem place _

theorem guarded_amount (place : π) (v : Value) : GuardedRead v.isTooLarge (amount place v) := by
  cases v with
  | int i =>
    simp only [amount, ofWhole, isTooLarge]
    cases Decimal.ofInt? i with
    | none => exact guarded_escape (Or.inl isStray_wholeTooLarge)
    | some x => exact .ok _
  | float x => exact .ok _
  | _ => exact guarded_problem place _

theorem guarded_list (place : π) (v : Value) : GuardedRead false (list place v) := by
  cases v with
  | null => exact .ok _
  | list l => exact .ok _
  | _ => exact guarded_problem place _

theorem guarded_mapping (place : π) (v : Value) : GuardedRead false (mapping place v) := by
  cases v with
  | mapping l => exact .ok _
  | _ => exact guarded_problem place _

/-! ## Conditions -/

theorem hasInfinitePart_of_spellsDate {v : Value} (h : spellsDate v = true) :
    v.hasInfinitePart = false := by
  cases v with
  | text s => rfl
  | day d => rfl
  | moment d clock => rfl
  | _ => cases h

theorem guarded_dateValue (place : EventPlace) {v : Value} (h : spellsDate v = true) :
    GuardedRead false (dateValue place v) := by
  have hread := guarded_date place v
  rw [hasInfinitePart_of_spellsDate h] at hread
  exact hread.then_ok _

theorem guarded_withDateParts (j : Nat) (key : String) (p : List (String × Value)) :
    GuardedRead false (withDateParts j key p) := by
  unfold withDateParts
  split
  · split
    · exact (guarded_dateValue _ (by assumption)).then_ok _
    · exact .ok _
  · exact .ok _

theorem guarded_withParts (j : Nat) (entries : List (String × Value)) :
    GuardedRead false (withParts j entries) := by
  unfold withParts
  split
  · refine (guarded_withDateParts j "start" _).step fun p _ => ?_
    exact (guarded_withDateParts j "end" p).then_ok _
  · split
    · exact (guarded_dateValue _ (by assumption)).then_ok _
    · exact .ok _
  · exact .ok _

/-- The hazards of an entry of `unlockedBy`. A payload that spells a date has none. -/
def conditionHasHazard (v : Value) : Bool :=
  !spellsDate (fieldOf v.entries "value") && Condition.hasHazard v.entries

theorem hasInfinitePart_of_respelled {v w : Value} (h : Respelled v w) :
    w.hasInfinitePart = v.hasInfinitePart := by
  rcases h with ⟨-, rfl⟩ | ⟨hs, d, -, rfl⟩
  · rfl
  · rw [hasInfinitePart_of_spellsDate hs]
    rfl

theorem payloadHasHazard_of_parted {v w : Value} (h : Parted v w) (k : ConditionKind) :
    Condition.payloadHasHazard k w =
      (!spellsDate v && Condition.payloadHasHazard k v) := by
  cases h with
  | value _ h =>
    rcases h with ⟨hs, rfl⟩ | ⟨hs, d, -, rfl⟩
    · rw [hs]
      rfl
    · rw [hs]
      cases k <;> rfl
  | @mapping p q first last rest =>
    have hfield (a : String) (hs : a ≠ "start") (he : a ≠ "end") : fieldOf q a = fieldOf p a := by
      rw [fieldOf, rest a hs he]
      rfl
    show Condition.payloadHasHazard k (.mapping q) = Condition.payloadHasHazard k (.mapping p)
    cases k with
    | dateIs =>
      simp only [Condition.payloadHasHazard, hasInfinitePart, Value.entries]
      rw [hfield "y" (by decide) (by decide), hfield "m" (by decide) (by decide),
        hfield "d" (by decide) (by decide)]
    | dateInRange =>
      simp only [Condition.payloadHasHazard, Value.entries]
      rw [hasInfinitePart_of_respelled first, hasInfinitePart_of_respelled last]
      rfl
    | networthIsAbove =>
      simp only [Condition.payloadHasHazard, Value.entries]
      rw [hfield "amount" (by decide) (by decide)]
      rfl
    | eventHappened => rfl
    | incomeIsAbove =>
      simp only [Condition.payloadHasHazard, Value.entries]
      rw [hfield "amount" (by decide) (by decide)]

theorem guarded_condition (j : Nat) (v : Value) :
    GuardedRead (conditionHasHazard v) (condition j v) := by
  refine (guarded_mapping _ v).step fun before hv => ?_
  obtain rfl := mapping_eq_ok.1 hv
  refine (guarded_withParts j before).step fun after hparts => ?_
  obtain ⟨hpayload, hrest⟩ := withParts_eq_ok hparts
  have hhazard : conditionHasHazard (.mapping before) = Condition.hasHazard after := by
    have htype : fieldOf after "type" = fieldOf before "type" := by
      rw [fieldOf, hrest "type" (by decide)]
      rfl
    simp only [conditionHasHazard, Condition.hasHazard, Value.entries, htype]
    cases Condition.kindOf? (fieldOf before "type") with
    | none => exact Bool.and_false _
    | some k => exact (payloadHasHazard_of_parted hpayload k).symm
  rw [hhazard]
  have hread := Condition.guarded_ofValue after
  cases hr : Condition.ofValue (.mapping after) with
  | ok c =>
    rw [hr] at hread
    rw [hread.eq_false]
    exact .ok c
  | error f =>
    rw [hr] at hread
    cases f with
    | config f => exact guarded_problem _ _
    | value f =>
      have hvalue : GuardedValue (Condition.hasHazard after)
          (.error f : Except ValueFault (Condition Float)) := by
        refine ⟨fun _ b hb => ?_, fun e he => ?_⟩
        · cases hb
        · cases he
          exact hread.contained _ rfl
      exact guarded_judged _ _ hvalue

theorem guarded_conditionsFrom (j : Nat) (l : List Value) :
    GuardedRead (l.any conditionHasHazard) (conditionsFrom j l) := by
  induction l generalizing j with
  | nil => exact .ok _
  | cons v l ih => exact (guarded_condition j v).bind fun c _ => (ih (j + 1)).then_ok _

theorem guarded_conditions (v : Value) :
    GuardedRead (v.items.any conditionHasHazard) (conditions v) := by
  refine (guarded_list _ v).step fun l hl => ?_
  rw [items_of_list hl]
  exact guarded_conditionsFrom 0 l

/-! ## Events -/

/-- The hazards of what all kinds of events have in common. -/
def headHasHazard (entries : List (String × Value)) : Bool :=
  (fieldOf entries "type").isUnwritten ||
    ((fieldOf entries "amount").isTooLarge ||
      ((fieldOf entries "unlockedBy").items.any conditionHasHazard ||
        (fieldOf entries "metadata").entries.any fun e => e.2.isUnwritten))

/-- The hazards of a shorthand. -/
def shorthandHasHazard (entries : List (String × Value)) (kind : String) : Bool :=
  if kind = "one-off" then (fieldOf entries "date").hasInfinitePart
  else if kind = "recurring" then
    (fieldOf entries "start").hasInfinitePart ||
      ((fieldOf entries "end").hasInfinitePart || (fieldOf entries "frequency").isUnwritten)
  else false

/-- The hazards of a kind and of what it reads; without a kind, of the recurrence. -/
def kindHasHazard (entries : List (String × Value)) (kind : Value) : Bool :=
  match kind with
  | .null => (recurrenceField entries).isUnwritten
  | .list _ | .mapping _ => true
  | .text kind => shorthandHasHazard entries kind
  | kind => kind.isUnwritten

def eventHasHazard (v : Value) : Bool :=
  headHasHazard v.entries || kindHasHazard v.entries (fieldOf v.entries "kind")

theorem guarded_word (place : EventPlace) (options : List String) (v : Value) :
    GuardedRead v.isUnwritten (word place options v) := by
  cases v with
  | text s =>
    simp only [word]
    split
    · exact .ok s
    · exact guarded_problem place _
  | _ => exact guarded_problemShowing place _ _

theorem guarded_eventName (v : Value) : GuardedRead false (eventName v) := by
  cases v with
  | text s =>
    simp only [eventName]
    split
    · exact guarded_problem _ _
    · exact .ok s
  | _ => exact guarded_problem _ _

theorem guarded_metadata (v : Value) :
    GuardedRead (v.entries.any fun e => e.2.isUnwritten) (metadata v) := by
  cases v with
  | null => exact .ok none
  | mapping l =>
    show GuardedRead _ (ite _ _ _)
    split
    · rename_i h
      rw [Value.entries, h]
      exact guarded_escape (Or.inr (Or.inl rfl))
    · rename_i h
      rw [Value.entries, Bool.eq_false_iff.2 h]
      exact .ok _
  | _ => exact guarded_problem _ _

theorem guarded_eventHead (entries : List (String × Value)) :
    GuardedRead (headHasHazard entries) (eventHead entries) := by
  refine (guarded_eventName _).step fun name _ => ?_
  refine (guarded_word _ _ _).bind fun type _ => (guarded_amount _ _).bind fun amount _ => ?_
  exact (guarded_conditions _).bind fun conditions _ => (guarded_metadata _).then_ok _

theorem guarded_fullEvent (h : EventHead) (entries : List (String × Value)) :
    GuardedRead (recurrenceField entries).isUnwritten (fullEvent h entries) :=
  (guarded_word _ _ _).then_ok _

theorem guarded_oneOffEvent (h : EventHead) (entries : List (String × Value)) :
    GuardedRead (fieldOf entries "date").hasInfinitePart (oneOffEvent h entries) := by
  refine (guarded_date _ _).last fun d _ => ?_
  cases d with
  | some d => exact .ok _
  | none => exact guarded_problem _ _

theorem isUnwritten_frequency (entries : List (String × Value)) :
    ((Value.lookup "frequency" entries).getD (.text Recurrence.monthly.name)).isUnwritten =
      (fieldOf entries "frequency").isUnwritten := by
  rw [fieldOf]
  cases Value.lookup "frequency" entries <;> rfl

theorem guarded_recurringEvent (h : EventHead) (entries : List (String × Value)) :
    GuardedRead ((fieldOf entries "start").hasInfinitePart ||
        ((fieldOf entries "end").hasInfinitePart || (fieldOf entries "frequency").isUnwritten))
      (recurringEvent h entries) := by
  refine (guarded_date _ _).bind fun first _ => ?_
  cases first with
  | none => exact guarded_problem _ _
  | some first =>
    refine (guarded_date _ _).bind fun last _ => ?_
    rw [← isUnwritten_frequency]
    dsimp only
    generalize (Value.lookup "frequency" entries).getD (.text Recurrence.monthly.name) = frequency
    cases he : Event.recurring h.type h.name h.amount first last frequency h.conditions h.metadata with
    | error f => exact guarded_problemShowing _ _ _
    | ok e =>
      -- Only words are frequencies.
      cases frequency with
      | text s => exact .ok e
      | _ => cases he

theorem guarded_gatedEvent (h : EventHead) : GuardedRead false (gatedEvent h) := by
  unfold gatedEvent
  split
  · exact guarded_problem _ _
  · exact .ok _

theorem guarded_shorthand (h : EventHead) (entries : List (String × Value)) (kind : String) :
    GuardedRead (shorthandHasHazard entries kind) (ofKind h entries (.text kind)) := by
  refine (guarded_word (.field "kind") kinds (.text kind)).step fun s hs => ?_
  obtain ⟨⟨⟩, hmem⟩ := word_eq_ok.1 hs
  simp only [kinds, List.mem_cons, List.not_mem_nil, or_false] at hmem
  rcases hmem with rfl | rfl | rfl
  · exact guarded_gatedEvent h
  · exact guarded_oneOffEvent h entries
  · exact guarded_recurringEvent h entries

theorem guarded_event (v : Value) : GuardedRead (eventHasHazard v) (event v) := by
  refine (guarded_mapping _ v).step fun entries hv => ?_
  obtain rfl := mapping_eq_ok.1 hv
  refine (guarded_eventHead entries).bind fun h _ => ?_
  show GuardedRead (kindHasHazard entries (fieldOf entries "kind")) _
  generalize fieldOf entries "kind" = kind
  cases kind with
  | null => exact guarded_fullEvent h entries
  | text kind => exact guarded_shorthand h entries kind
  | list l => exact guarded_escape (Or.inr (Or.inr ⟨_, rfl⟩))
  | mapping l => exact guarded_escape (Or.inr (Or.inr ⟨_, rfl⟩))
  | _ =>
    refine (guarded_word (.field "kind") kinds _).last fun s hs => ?_
    cases (word_eq_ok.1 hs).1

theorem guarded_eventsFrom (i : Nat) (l : List Value) :
    GuardedRead (l.any eventHasHazard) (eventsFrom i l) := by
  induction l generalizing i with
  | nil => exact .ok _
  | cons v l ih =>
    refine Guarded.bind ?_ fun e _ => (ih (i + 1)).then_ok _
    refine (guarded_event v).mapError _ ?_ ?_
    · rintro _ ⟨place, p, rfl⟩
      exact ⟨_, _, rfl⟩
    · rintro _ ⟨f, rfl, hf⟩
      exact ⟨f, rfl, hf⟩

/-! ## Documents -/

/-- The hazards of the defaults for a run. -/
def defaultsHaveHazard (entries : List (String × Value)) : Bool :=
  (fieldOf entries "start").hasInfinitePart ||
    ((fieldOf entries "end").hasInfinitePart || (fieldOf entries "initial_balance").isTooLarge)

def partsHaveHazard (entries : List (String × Value)) : Bool :=
  defaultsHaveHazard entries || (fieldOf entries "events").items.any eventHasHazard

/-- A document with more than `limit` lists and mappings inside one another, or with a hazard in what
is read of it. -/
def hasHazard (limit : Nat) (entries : List (String × Value)) : Bool :=
  decide (limit < (Value.mapping entries).depth) || partsHaveHazard entries

theorem guarded_documentName (entries : List (String × Value)) :
    GuardedRead false (documentName entries) := by
  unfold documentName
  split
  · split
    · exact guarded_problem _ _
    · exact .ok _
  · exact guarded_problem _ _

theorem isTooLarge_opening (entries : List (String × Value)) :
    ((Value.lookup "initial_balance" entries).getD (.float 0)).isTooLarge =
      (fieldOf entries "initial_balance").isTooLarge := by
  rw [fieldOf]
  cases Value.lookup "initial_balance" entries <;> rfl

theorem guarded_runDefaults (entries : List (String × Value)) :
    GuardedRead (defaultsHaveHazard entries) (runDefaults entries) := by
  refine (guarded_date _ _).bind fun first _ => (guarded_date _ _).bind fun last _ => ?_
  rw [← isTooLarge_opening]
  exact (guarded_amount _ _).then_ok _

theorem guarded_parts (entries : List (String × Value)) :
    GuardedRead (partsHaveHazard entries) (parts entries) := by
  refine (guarded_documentName entries).step fun name _ => ?_
  refine (guarded_runDefaults entries).bind fun defaults _ => ?_
  refine (guarded_list _ _).step fun items hitems => ?_
  rw [items_of_list hitems]
  exact (guarded_eventsFrom 0 items).then_ok _

/-- Loading gives a document or a problem and its place, unless the document has a hazard. With one
it never loads: then it may end at its depth or in one of the faults that are not judged. -/
theorem ofMappingWithin_contract (limit : Nat) (entries : List (String × Value)) :
    ((∃ doc, ofMappingWithin limit entries = .ok doc) ∨
      (∃ place p, ofMappingWithin limit entries =
        .error (.load (.problem mappingSource place p))) ∨
      hasHazard limit entries = true ∧
        (ofMappingWithin limit entries = .error .nested ∨
          ∃ f : ValueFault, f.Escapes ∧
            ofMappingWithin limit entries = .error (.escaped (.value f)))) ∧
    (hasHazard limit entries = true → ∀ doc, ofMappingWithin limit entries ≠ .ok doc) := by
  have hparts := guarded_parts entries
  unfold ofMappingWithin hasHazard
  by_cases hdepth : limit < (Value.mapping entries).depth
  · rw [if_pos hdepth, decide_eq_true hdepth]
    refine ⟨Or.inr (Or.inr ⟨rfl, Or.inl rfl⟩), fun _ doc h => ?_⟩
    cases h
  · rw [if_neg hdepth, decide_eq_false hdepth, Bool.false_or, ofMapping, ofEntries]
    cases hr : parts entries with
    | ok read =>
      rw [hr] at hparts
      refine ⟨Or.inl ⟨_, rfl⟩, fun h => ?_⟩
      rw [hparts.eq_false] at h
      cases h
    | error m =>
      refine ⟨Or.inr ?_, fun _ doc h => ?_⟩
      · rw [hr] at hparts
        rcases hparts.contained m rfl with ⟨place, p, rfl⟩ | ⟨hz, f, rfl, hf⟩
        · exact Or.inl ⟨place, p, rfl⟩
        · exact Or.inr ⟨hz, Or.inr ⟨f, hf, rfl⟩⟩
      · cases h

/-- A sale with a list for its kind. -/
def listedKind : List (String × Value) :=
  [("name", .text "Shop"), ("events", .list [.mapping [("name", .text "Sale"),
    ("type", .text "income"), ("amount", .float 1), ("kind", .list [])]])]

theorem ofMappingWithin_listedKind :
    hasHazard 494 listedKind = true ∧
      (∀ doc, ofMappingWithin 494 listedKind ≠ .ok doc) ∧
      ofMappingWithin 494 listedKind = .error (.escaped (.value (.unhashable "list"))) :=
  ⟨rfl, (ofMappingWithin_contract 494 listedKind).2 rfl, rfl⟩

end Document

end Cashflow

import Mathlib.Data.List.Induction
import Cashflow.Simulation.Run
import Cashflow.Proofs.Calendar.Window

/-!
# The trace of a run

A turn is an event in a month of the run; each month gives every event one turn, those without a
balance condition first. A trace is the list of the turns that fired, and it carries all that a
simulation has to remember:

* `Fires opening H t` : whether the turn `t` fires after the trace `H`, from `H` alone;
* `ofTurns opening ts` : the trace that the turns `ts` leave;
* `books opening months H` : the ledger, the balances and the history that a trace stands for;
* `Stuck H t` : the yearly turn whose name last fired in a year below zero.

`get?_history` and `keys_history` read the firing history off the trace, `ofTurns_eq_flatMap` takes
a trace apart into its months, `entries_cashflow` and `entries_balances` list the months of its
books.
-/

namespace Cashflow

/-- An event in a month in which it may fire. -/
structure Turn (α : Type) where
  month : Date
  event : Event α

/-- The turns of some months: in each month the events without a balance condition, then those with
one, as they are declared. -/
def turns {α : Type} (months : List Date) (events : List (Event α)) : List (Turn α) :=
  months.flatMap fun m =>
    (events.filter (fun e => !e.isBalanceGated) ++ events.filter Event.isBalanceGated).map
      fun e => ⟨m, e⟩

/-- The turns that fired, in order. -/
abbrev Trace (α : Type) := List (Turn α)

namespace Trace

section Parts
variable {α : Type}

/-- The firings of a name. -/
def named (H : Trace α) (name : String) : Trace α := H.filter fun t => t.event.name = name

/-- The firings in a month. -/
def during (H : Trace α) (month : Date) : Trace α := H.filter fun t => t.month = month

/-- The firings in a month and before. -/
def upTo (H : Trace α) (month : Date) : Trace α := H.filter fun t => t.month ≤ month

/-- The firing history as it is recorded, firing by firing. -/
def history (H : Trace α) : History := H.foldl (fun h t => h.record t.event.name t.month.key) .empty

end Parts

variable {α : Type} [Amount α]

def signed (H : Trace α) : List α := H.map fun t => t.event.signedAmount

/-- The opening balance and all signed amounts, added from left to right. -/
def balance (opening : α) (H : Trace α) : α := H.signed.foldl (· + ·) opening

def entry (H : Trace α) (month : Date) : Entry α :=
  ⟨Amount.total (H.during month).signed, (H.during month).map Turn.event⟩

/-- The books after the given months. -/
def books (opening : α) (months : List Date) (H : Trace α) : Books α where
  balance := H.balance opening
  cashflow := .ofList (months.map fun m => (m.key, H.entry m))
  balances := .ofList (months.map fun m => (m.key, (H.upTo m).balance opening))
  history := H.history

/-! ## Which turns fire -/

/-- What the recurrence of the event asks of the trace. -/
def MayFire (H : Trace α) (t : Turn α) : Prop :=
  t.event.recurrence = Recurrence.monthly.name ∨
  t.event.recurrence = Recurrence.once.name ∧ (∀ u ∈ H, u.event.name ≠ t.event.name) ∨
  t.event.recurrence = Recurrence.yearly.name ∧
    ∃ range ∈ t.event.dateRange?, t.month.month = range.1.month ∧
      ∀ u ∈ (H.named t.event.name).getLast?, u.month.year ≠ t.month.year

/-- What a condition asks of the trace, in a month. -/
def Holds (opening : α) (H : Trace α) (month : Date) : Condition α → Prop
  | .dateIs d => month.year = d.year ∧ month.month = d.month
  | .dateInRange first last =>
    first.startOfMonth ≤ month.startOfMonth ∧
      month.startOfMonth ≤ (last.map Date.startOfMonth).getD Date.farFuture
  | .networthIsAbove _ x => x < H.balance opening
  | .eventHappened name => ∃ u ∈ H, u.event.name = name
  | .incomeIsAbove name x =>
    ∃ u ∈ (H.during month).find? (fun u => u.event.name = name && u.event.isIncome),
      x ≤ u.event.amount

instance (H : Trace α) (t : Turn α) : Decidable (H.MayFire t) :=
  inferInstanceAs (Decidable (_ ∨ _ ∧ _ ∨ _ ∧ _))

instance (opening : α) (H : Trace α) (month : Date) : DecidablePred (Holds opening H month)
  | .dateIs _ => inferInstanceAs (Decidable (_ ∧ _))
  | .dateInRange _ _ => inferInstanceAs (Decidable (_ ∧ _))
  | .networthIsAbove _ _ => inferInstanceAs (Decidable (_ < _))
  | .eventHappened _ => inferInstanceAs (Decidable (∃ _ ∈ _, _))
  | .incomeIsAbove _ _ => inferInstanceAs (Decidable (∃ _ ∈ _, _))

def Fires (opening : α) (H : Trace α) (t : Turn α) : Prop :=
  H.MayFire t ∧ ∀ c ∈ t.event.conditions, Holds opening H t.month c

instance (opening : α) (H : Trace α) (t : Turn α) : Decidable (Fires opening H t) :=
  inferInstanceAs (Decidable (_ ∧ _))

/-- The trace after one more turn. -/
def visit (opening : α) (H : Trace α) (t : Turn α) : Trace α :=
  if Fires opening H t then H ++ [t] else H

def ofTurns (opening : α) (ts : List (Turn α)) : Trace α := ts.foldl (visit opening) []

/-- A yearly event in its month, whose name last fired in a year below zero. -/
def Stuck (H : Trace α) (t : Turn α) : Prop :=
  t.event.recurrence = Recurrence.yearly.name ∧
    ∃ range ∈ t.event.dateRange?, t.month.month = range.1.month ∧
      ∃ u ∈ (H.named t.event.name).getLast?, u.month.year < 0

instance (H : Trace α) (t : Turn α) : Decidable (H.Stuck t) :=
  inferInstanceAs (Decidable (_ ∧ _))

section Parts
variable {α : Type} {H : Trace α} {t : Turn α}

theorem mayFire_once (h : t.event.recurrence = Recurrence.once.name) :
    H.MayFire t ↔ ∀ u ∈ H, u.event.name ≠ t.event.name := by
  simp [MayFire, h, Recurrence.name]

theorem mayFire_monthly (h : t.event.recurrence = Recurrence.monthly.name) : H.MayFire t :=
  Or.inl h

theorem mayFire_yearly (h : t.event.recurrence = Recurrence.yearly.name) :
    H.MayFire t ↔ ∃ range ∈ t.event.dateRange?, t.month.month = range.1.month ∧
      ∀ u ∈ (H.named t.event.name).getLast?, u.month.year ≠ t.month.year := by
  simp [MayFire, h, Recurrence.name]

end Parts

/-! ## The history of a trace -/

section Parts
variable {α : Type}

@[simp] theorem named_append (H K : Trace α) (name : String) :
    named (H ++ K) name = H.named name ++ K.named name := List.filter_append ..

@[simp] theorem during_append (H K : Trace α) (month : Date) :
    during (H ++ K) month = H.during month ++ K.during month := List.filter_append ..

@[simp] theorem upTo_append (H K : Trace α) (month : Date) :
    upTo (H ++ K) month = H.upTo month ++ K.upTo month := List.filter_append ..

theorem history_concat (H : Trace α) (t : Turn α) :
    history (H ++ [t]) = H.history.record t.event.name t.month.key := by
  simp [history]

theorem named_eq_nil_iff {H : Trace α} {name : String} :
    H.named name = [] ↔ ∀ u ∈ H, u.event.name ≠ name := by
  simp [named]

/-- A name's record: the months of its first and its last firing, and how often it fired. -/
theorem get?_history (H : Trace α) (name : String) :
    H.history.get? name = (H.named name).head?.bind fun a => (H.named name).getLast?.map fun z =>
      ⟨a.month.key, z.month.key, (H.named name).length⟩ := by
  induction H using List.reverseRecOn with
  | nil => exact Keyed.get?_empty name
  | append_singleton H t ih =>
    rw [history_concat, History.get?_record, named_append]
    by_cases h : t.event.name = name
    · subst h
      have hk : Trace.named [t] t.event.name = [t] := by simp [named]
      rw [if_pos rfl, ih, hk]
      cases named H t.event.name with
      | nil => rfl
      | cons a r => simp [List.getLast?_cons, Firings.record]
    · have hk : Trace.named [t] name = [] := by simp [named, h]
      rw [if_neg h, ih, hk, List.append_nil]

theorem keys_history (H : Trace α) :
    H.history.keys = (H.map fun t => t.event.name).eraseDups := by
  induction H using List.reverseRecOn with
  | nil => rfl
  | append_singleton H t ih =>
    rw [history_concat, History.keys_record, ih, List.map_append, List.eraseDups_append]
    generalize H.map (fun t => t.event.name) = names
    by_cases h : t.event.name ∈ names
    · rw [if_pos (List.mem_eraseDups.2 h)]
      simp [List.removeAll, h]
    · rw [if_neg (fun h' => h (List.mem_eraseDups.1 h'))]
      simp [List.removeAll, h, List.eraseDups_cons]

theorem contains_history (H : Trace α) (name : String) :
    H.history.contains name = true ↔ ∃ u ∈ H, u.event.name = name := by
  rw [Keyed.contains_iff, keys_history, List.mem_eraseDups, List.mem_map]

/-! ## The months of a trace -/

theorem mem_turns {months : List Date} {events : List (Event α)} {t : Turn α} :
    t ∈ turns months events ↔ t.month ∈ months ∧ t.event ∈ events := by
  simp only [turns, List.mem_flatMap, List.mem_map, List.mem_append, List.mem_filter]
  constructor
  · rintro ⟨m, hm, e, he, rfl⟩
    exact ⟨hm, he.elim (·.1) (·.1)⟩
  · rintro ⟨hm, he⟩
    refine ⟨t.month, hm, t.event, ?_, rfl⟩
    cases t.event.isBalanceGated <;> simp [he]

theorem turns_append (months months' : List Date) (events : List (Event α)) :
    turns (months ++ months') events = turns months events ++ turns months' events :=
  List.flatMap_append ..

theorem turns_cons (m : Date) (months : List Date) (events : List (Event α)) :
    turns (m :: months) events = turns [m] events ++ turns months events :=
  turns_append [m] months events

theorem turns_singleton (month : Date) (events : List (Event α)) :
    turns [month] events =
      ((passes events).1 ++ (passes events).2).map fun e => ⟨month, e⟩ := by
  simp [turns, passes]

theorem during_eq_self {H : Trace α} {month : Date} (h : ∀ t ∈ H, t.month = month) :
    H.during month = H :=
  List.filter_eq_self.2 fun t ht => decide_eq_true (h t ht)

theorem during_eq_nil {H : Trace α} {month : Date} (h : ∀ t ∈ H, t.month ≠ month) :
    H.during month = [] :=
  List.filter_eq_nil_iff.2 fun t ht => by simpa using h t ht

theorem upTo_eq_self {H : Trace α} {month : Date} (h : ∀ t ∈ H, t.month ≤ month) :
    H.upTo month = H :=
  List.filter_eq_self.2 fun t ht => decide_eq_true (h t ht)

theorem upTo_eq_nil {H : Trace α} {month : Date} (h : ∀ t ∈ H, month < t.month) :
    H.upTo month = [] :=
  List.filter_eq_nil_iff.2 fun t ht => by simpa [Date.le_iff_not_lt] using h t ht

theorem mem_during {H : Trace α} {month : Date} {t : Turn α} (h : t ∈ H.during month) :
    t ∈ H ∧ t.month = month := by
  simpa [during] using h

/-- Some of the turns of the months, in order, are those of each month in turn. -/
theorem eq_flatMap_during {months : List Date} {events : List (Event α)} (hn : months.Nodup)
    {H : Trace α} (h : H.Sublist (turns months events)) : H = months.flatMap H.during := by
  induction months generalizing H with
  | nil => exact List.sublist_nil.1 h
  | cons m months ih =>
    rw [turns_cons] at h
    -- `A` is of the first month and `B` of the others, and no month comes twice.
    obtain ⟨A, B, rfl, hA, hB⟩ := List.sublist_append_iff.1 h
    rw [List.nodup_cons] at hn
    have hAm : ∀ t ∈ A, t.month = m := fun t ht =>
      List.mem_singleton.1 (mem_turns.1 (hA.mem ht)).1
    have hBm : ∀ t ∈ B, t.month ∈ months := fun t ht => (mem_turns.1 (hB.mem ht)).1
    have hBnil : during B m = [] := during_eq_nil fun t ht he => hn.1 (he ▸ hBm t ht)
    have hrest : months.flatMap (during (A ++ B)) = months.flatMap (during B) := by
      rw [List.flatMap_def, List.flatMap_def]
      congr 1
      apply List.map_congr_left
      intro m' hm'
      have hA' : during A m' = [] := during_eq_nil fun t ht he => by
        rw [← he, hAm t ht] at hm'
        exact hn.1 hm'
      rw [during_append, hA', List.nil_append]
    rw [List.flatMap_cons, hrest, during_append, during_eq_self hAm, hBnil, List.append_nil,
      ← ih hn.2 hB]

theorem named_eq_flatMap {H : Trace α} {months : List Date} (h : H = months.flatMap H.during)
    (name : String) : H.named name = months.flatMap fun m => named (H.during m) name := by
  conv_lhs => rw [h]
  exact List.filter_flatMap

/-- The firings up to a month are those of the months up to it. -/
theorem upTo_eq_flatMap {before after : List Date} {m : Date}
    (hs : (before ++ m :: after).Pairwise (· < ·)) {H : Trace α}
    (h : H = (before ++ m :: after).flatMap H.during) :
    H.upTo m = (before ++ [m]).flatMap H.during := by
  obtain ⟨-, hs', hlt⟩ := List.pairwise_append.1 hs
  obtain ⟨hgt, -⟩ := List.pairwise_cons.1 hs'
  have hfront : ∀ t ∈ (before ++ [m]).flatMap H.during, t.month ≤ m := by
    intro t ht
    obtain ⟨m', hm', ht⟩ := List.mem_flatMap.1 ht
    rw [(mem_during ht).2]
    rcases List.mem_append.1 hm' with hb | hb
    · exact Date.le_of_lt (hlt m' hb m (List.mem_cons_self))
    · rw [List.mem_singleton.1 hb]
      exact Date.le_refl m
  have hback : ∀ t ∈ after.flatMap H.during, m < t.month := by
    intro t ht
    obtain ⟨m', hm', ht⟩ := List.mem_flatMap.1 ht
    rw [(mem_during ht).2]
    exact hgt m' hm'
  rw [List.append_cons, List.flatMap_append] at h
  conv_lhs => rw [h]
  rw [upTo_append, upTo_eq_self hfront, upTo_eq_nil hback, List.append_nil]

end Parts

theorem mem_events_entry {H : Trace α} {m : Date} {e : Event α} :
    e ∈ (H.entry m).events ↔ ⟨m, e⟩ ∈ H := by
  show e ∈ (H.during m).map Turn.event ↔ _
  rw [List.mem_map]
  constructor
  · rintro ⟨t, ht, rfl⟩
    obtain ⟨htH, rfl⟩ := mem_during ht
    exact htH
  · exact fun h => ⟨_, List.mem_filter.2 ⟨h, decide_eq_true rfl⟩, rfl⟩

/-! ## The firings of a list of turns -/

@[simp] theorem signed_append (H K : Trace α) : signed (H ++ K) = H.signed ++ K.signed :=
  List.map_append

theorem balance_append (opening : α) (H K : Trace α) :
    balance opening (H ++ K) = K.balance (H.balance opening) := by
  rw [balance, signed_append, List.foldl_append]
  rfl

theorem visit_of_fires {opening : α} {H : Trace α} {t : Turn α} (h : Fires opening H t) :
    visit opening H t = H ++ [t] := if_pos h

theorem visit_of_not_fires {opening : α} {H : Trace α} {t : Turn α} (h : ¬ Fires opening H t) :
    visit opening H t = H := if_neg h

/-- The turns of a list add some of themselves, in order. -/
theorem foldl_visit (opening : α) (H : Trace α) (ts : List (Turn α)) :
    ∃ K : Trace α, ts.foldl (visit opening) H = H ++ K ∧ K.Sublist ts := by
  induction ts generalizing H with
  | nil => exact ⟨[], (List.append_nil H).symm, List.Sublist.refl _⟩
  | cons t ts ih =>
    rw [List.foldl_cons]
    by_cases h : Fires opening H t
    · obtain ⟨K, hK, hs⟩ := ih (H ++ [t])
      refine ⟨t :: K, ?_, hs.cons_cons t⟩
      rw [visit_of_fires h, hK, List.append_assoc, List.singleton_append]
    · obtain ⟨K, hK, hs⟩ := ih H
      refine ⟨K, ?_, hs.cons t⟩
      rw [visit_of_not_fires h, hK]

theorem ofTurns_append (opening : α) (ts us : List (Turn α)) :
    ofTurns opening (ts ++ us) = us.foldl (visit opening) (ofTurns opening ts) :=
  List.foldl_append

theorem ofTurns_concat (opening : α) (ts : List (Turn α)) (t : Turn α) :
    ofTurns opening (ts ++ [t]) = visit opening (ofTurns opening ts) t :=
  ofTurns_append opening ts [t]

theorem sublist_ofTurns (opening : α) (ts : List (Turn α)) :
    (ofTurns opening ts).Sublist ts := by
  obtain ⟨K, hK, hs⟩ := foldl_visit opening [] ts
  rw [ofTurns, hK]
  exact hs

theorem mem_of_mem_ofTurns {opening : α} {ts : List (Turn α)} {t : Turn α}
    (h : t ∈ ofTurns opening ts) : t ∈ ts :=
  (sublist_ofTurns opening ts).mem h

theorem ofTurns_eq_flatMap (opening : α) {months : List Date} (events : List (Event α))
    (hn : months.Nodup) :
    ofTurns opening (turns months events) =
      months.flatMap (ofTurns opening (turns months events)).during :=
  eq_flatMap_during hn (sublist_ofTurns opening _)

/-! ## The books of a trace -/

section Books
variable (opening : α) {months : List Date} (hk : (months.map Date.key).Nodup) (H : Trace α)
include hk

theorem entries_cashflow :
    (H.books opening months).cashflow.entries = months.map fun m => (m.key, H.entry m) :=
  Keyed.entries_ofList _ (by rwa [List.map_map])

theorem entries_balances :
    (H.books opening months).balances.entries =
      months.map fun m => (m.key, (H.upTo m).balance opening) :=
  Keyed.entries_ofList _ (by rwa [List.map_map])

theorem get?_cashflow {m : Date} (hm : m ∈ months) :
    (H.books opening months).cashflow.get? m.key = some (H.entry m) := by
  rw [Keyed.get?_eq_find, entries_cashflow opening hk]
  refine Keyed.find_of_mem _ _ _ ?_ (List.mem_map_of_mem hm)
  rwa [List.map_map]

theorem get?_balances {m : Date} (hm : m ∈ months) :
    (H.books opening months).balances.get? m.key = some ((H.upTo m).balance opening) := by
  rw [Keyed.get?_eq_find, entries_balances opening hk]
  refine Keyed.find_of_mem _ _ _ ?_ (List.mem_map_of_mem hm)
  rwa [List.map_map]

theorem keys_cashflow : (H.books opening months).cashflow.keys = months.map Date.key := by
  rw [Keyed.keys, entries_cashflow opening hk, List.map_map]
  rfl

theorem keys_balances : (H.books opening months).balances.keys = months.map Date.key := by
  rw [Keyed.keys, entries_balances opening hk, List.map_map]
  rfl

theorem values_cashflow : (H.books opening months).cashflow.values = months.map H.entry := by
  rw [Keyed.values, entries_cashflow opening hk, List.map_map]
  rfl

theorem values_balances :
    (H.books opening months).balances.values =
      months.map fun m => (H.upTo m).balance opening := by
  rw [Keyed.values, entries_balances opening hk, List.map_map]
  rfl

end Books

end Trace

end Cashflow

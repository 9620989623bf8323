import Cashflow.Proofs.Document.Reading
import Cashflow.Proofs.Review.ForwardReference
import Cashflow.Proofs.Simulation.Recurrences
import Cashflow.Proofs.Simulation.Schedule

/-!
# The month of a yearly event

The builder puts the range of a yearly event behind the conditions of the caller, and the gate takes
its month from the first range that it finds. So the event comes round in the month of its start if
the caller gave no range, and in the month of the caller's first range otherwise
(`anniversaryMonth`).

* `Books.firedUntil` : the firings of a run up to a turn, read off the ledger and the month in
  progress;
* `fires_in_anniversaryMonth` : in every run the event is listed in months of this number only, and
  whenever its turn comes the gate is open exactly in such a month of a year in which none of its
  name has fired.
-/

namespace Cashflow
open Trace

/-- The number of the month in which a yearly event of the builder comes round. -/
def anniversaryMonth {α : Type} (start : Date) (conditions : List (Condition α)) : Int :=
  ((conditions.findSome? Condition.range?).map fun range => range.1.month).getD start.month

/-- The event is yearly and takes its month from a range with this number. -/
structure Event.ComesRound {α : Type} (e : Event α) (number : Int) : Prop where
  recurrence : e.recurrence = Recurrence.yearly.name
  range : ∃ range, e.dateRange? = some range ∧ range.1.month = number

theorem comesRound_recurring {α : Type} {type name : String} {amount : α} {start : Date}
    {stop : Option Date} {conditions : List (Condition α)} {metadata : Option Value} {e : Event α}
    (h : Event.recurring type name amount start stop (.text Recurrence.yearly.name) conditions
      metadata = .ok e) : e.ComesRound (anniversaryMonth start conditions) := by
  obtain rfl := recurring_eq_append h
  refine ⟨rfl, ?_⟩
  unfold Event.dateRange? anniversaryMonth
  rw [List.findSome?_append]
  cases conditions.findSome? Condition.range? with
  | none => exact ⟨(start, stop), rfl, rfl⟩
  | some range => exact ⟨range, rfl, rfl⟩

namespace Event.ComesRound
variable {α : Type} {e : Event α} {number : Int} (h : e.ComesRound number)
include h

theorem mayFire_iff {H : Trace α} {month : Date} :
    H.MayFire ⟨month, e⟩ ↔ month.month = number ∧
      ∀ u ∈ (H.named e.name).getLast?, u.month.year ≠ month.year := by
  obtain ⟨range, hrange, rfl⟩ := h.range
  rw [mayFire_yearly h.recurrence]
  constructor
  · rintro ⟨range', hrange', hmonth, hlast⟩
    obtain rfl := Option.some.inj (hrange.symm.trans hrange')
    exact ⟨hmonth, hlast⟩
  · rintro ⟨hmonth, hlast⟩
    exact ⟨range, hrange, hmonth, hlast⟩

variable [Amount α] {r : Registry}

theorem month_of_shouldFire {o : OpenMonth α} (hfires : e.shouldFire r o.moment = .ok true) :
    o.month.month = number := by
  obtain ⟨range, hrange, rfl⟩ := h.range
  have hcan := (shouldFire_eq_true_iff.1 hfires).1
  unfold Event.canFire at hcan
  split at hcan
  · rename_i k hk
    have hname := Recurrence.eq_name_of_ofName? (Option.filter_eq_some_iff.1 hk).1
    rw [h.recurrence] at hname
    obtain rfl : k = .yearly := by
      cases k with
      | yearly => rfl
      | once => exact absurd hname (by decide)
      | monthly => exact absurd hname (by decide)
    have hopen : Recurrence.yearlyOpen e o.moment = .ok true := mapError_eq_ok.1 hcan
    unfold Recurrence.yearlyOpen at hopen
    rw [hrange] at hopen
    dsimp only at hopen
    split at hopen
    · cases hopen
    · rename_i hmonth
      exact not_not.1 hmonth
  · cases hcan

end Event.ComesRound

/-! ## Where the ledger lists it -/

variable {α : Type} [Amount α]

/-- The ledger lists the event in months of the number only. -/
def Books.ListsIn (number : Int) (e : Event α) (b : Books α) : Prop :=
  ∀ key, (key, e) ∈ listing b.cashflow → ∃ m : Date, m.key = key ∧ m.month = number

section Ledger
variable {r : Registry} {number : Int} {e : Event α}

theorem mem_listing {ledger : Keyed String (Entry α)} {key : String} :
    (key, e) ∈ listing ledger ↔ ∃ entry, (key, entry) ∈ ledger.entries ∧ e ∈ entry.events := by
  simp only [listing, List.mem_flatMap, List.mem_map, Prod.mk.injEq]
  constructor
  · rintro ⟨⟨_, entry⟩, hentry, _, he, rfl, rfl⟩
    exact ⟨entry, hentry, he⟩
  · rintro ⟨entry, hentry, he⟩
    exact ⟨(key, entry), hentry, e, he, rfl, rfl⟩

theorem Books.ListsIn.put {b : Books α} (hb : b.ListsIn number e) {o : OpenMonth α}
    (ho : e ∈ o.entry.events → o.month.month = number) :
    ∀ key, (key, e) ∈ listing (b.cashflow.put o.month.key o.entry) →
      ∃ m : Date, m.key = key ∧ m.month = number := by
  intro key hkey
  obtain ⟨entry, hentry, he⟩ := mem_listing.1 hkey
  rcases Keyed.mem_entries_put hentry with hnew | hold
  · obtain ⟨rfl, rfl⟩ := Prod.mk.inj hnew
    exact ⟨o.month, rfl, ho he⟩
  · exact hb key (mem_listing.2 ⟨entry, hold, he⟩)

theorem Event.ComesRound.keptBy (h : e.ComesRound number) (events : List (Event α)) :
    KeptBy r events (Books.ListsIn number e)
      (fun o => e ∈ o.entry.events → o.month.month = number)
      (fun o => e ∈ o.entry.events → o.month.month = number) := by
  have hfire : ∀ (x : Event α) (o : OpenMonth α), (e ∈ o.entry.events → o.month.month = number) →
      x.shouldFire r o.moment = .ok true → e ∈ o.entry.events ++ [x] →
      o.month.month = number := by
    intro x o ho hfires he
    rcases List.mem_append.1 he with he | he
    · exact ho he
    · obtain rfl := List.mem_singleton.1 he
      exact h.month_of_shouldFire hfires
  exact {
    opens := fun _ _ _ => nofun
    first := fun x _ o ho hfires => hfire x o ho hfires
    shows := fun _ ho => ho
    second := fun x _ o ho hfires => hfire x o ho hfires
    closes := fun _ _ hb ho => hb.put ho
    interrupts := fun _ _ hb ho => hb.put (ho.elim id id) }

end Ledger

/-! ## The gate at its turn -/

/-- The firings of a run up to a turn, after the months before it. -/
def Books.firedUntil (r : Registry) (events : List (Event α)) (start : Books α)
    (before : List Date) (turn : OpenMonth α) : Trace α :=
  start.firings r (before.map fun m => ⟨m, (passes events).1, (passes events).2⟩) ++
    turn.entry.events.map (Turn.mk turn.month)

section Turns
variable {r : Registry} {events : List (Event α)} {turn : OpenMonth α} {m : Date} {i : Nat}
  {e : Event α}

theorem explains_untilTurn {H : Trace α} {b : Books α} (hb : H.Explains b.history)
    (h : (b.openMonth m).untilTurn r events i e = .ok turn) :
    turn.month = m ∧ Explains (H ++ turn.entry.events.map (Turn.mk m)) turn.history := by
  unfold OpenMonth.untilTurn at h
  split at h
  · have hleaves := (resumes_openMonth hb
      ⟨m, (passes events).1, (passes (events.take i)).2⟩).leaves_evaluate (r := r)
    rw [h] at hleaves
    exact ⟨hleaves.month, hleaves.explains⟩
  · have hleaves := (resumes_openMonth hb
      ⟨m, (passes (events.take i)).1, []⟩).leaves_firstPass (r := r)
    rw [h] at hleaves
    exact ⟨hleaves.month, hleaves.explains⟩

variable {opening : α} {before : List Date} {b : Books α}

theorem history_firedUntil
    (hb : ({ balance := opening } : Books α).evaluateMonths r events before = .ok b)
    (hturn : (b.openMonth m).untilTurn r events i e = .ok turn) :
    turn.month = m ∧
      turn.history = (Books.firedUntil r events { balance := opening } before turn).history := by
  have hsession := explains_session (r := r) (explains_start opening)
    (before.map fun m => ⟨m, (passes events).1, (passes events).2⟩)
  rw [← evaluateMonths_eq_session hb] at hsession
  obtain ⟨hmonth, hexplains⟩ := explains_untilTurn hsession hturn
  refine ⟨hmonth, ?_⟩
  rw [hexplains.history, Books.firedUntil, hmonth]
  rfl

/-- The firings until a turn are of the months before it and of its own. -/
theorem month_of_mem_firedUntil {u : Turn α}
    (hu : u ∈ Books.firedUntil r events { balance := opening } before turn) :
    u.month ∈ before ∨ u.month = turn.month := by
  rcases List.mem_append.1 hu with hu | hu
  · obtain ⟨task, htask, hmonth, -⟩ := mem_firings (explains_start opening) hu
    obtain ⟨m, hm, rfl⟩ := List.mem_map.1 htask
    exact Or.inl (hmonth ▸ hm)
  · obtain ⟨x, -, rfl⟩ := List.mem_map.1 hu
    exact Or.inr rfl

theorem years_firedUntil (hs : (before ++ [turn.month]).Pairwise (· < ·)) :
    (Books.firedUntil r events { balance := opening } before turn).Pairwise
        (fun u t => u.month.year ≤ t.month.year) ∧
      ∀ u ∈ Books.firedUntil r events { balance := opening } before turn,
        u.month.year ≤ turn.month.year := by
  have hyear : ∀ {p q : Date}, p < q → p.year ≤ q.year := fun {p q} hpq => by
    rw [Date.lt_iff] at hpq
    omega
  obtain ⟨hbefore, -, hlt⟩ := List.pairwise_append.1 hs
  have hle : ∀ u ∈ Books.firedUntil r events { balance := opening } before turn,
      u.month.year ≤ turn.month.year := by
    intro u hu
    rcases month_of_mem_firedUntil hu with hm | hm
    · exact hyear (hlt u.month hm turn.month (List.mem_singleton_self _))
    · exact Int.le_of_eq (congrArg Date.year hm)
  refine ⟨List.pairwise_append.2 ⟨?_, ?_, fun u hu t ht => ?_⟩, hle⟩
  · refine pairwise_firings (R := fun m n => m.year ≤ n.year) (fun m => Int.le_refl m.year)
      (explains_start opening) (List.pairwise_map.2 (hbefore.imp hyear))
  · rw [List.pairwise_map]
    exact List.pairwise_of_forall fun _ _ => Int.le_refl turn.month.year
  · obtain ⟨x, -, rfl⟩ := List.mem_map.1 ht
    exact hle u (List.mem_append_left _ hu)

/-- Whenever the turn of the event comes, its gate is open in a month of its number in whose year
none of its name has fired. It has no answer after a firing in a year below zero. -/
theorem Event.ComesRound.canFire_eq {number : Int} (h : e.ComesRound number)
    (hw : r.wire events = .ok ()) (he : e ∈ events) (hs : (before ++ [m]).Pairwise (· < ·))
    (hb : ({ balance := opening } : Books α).evaluateMonths r events before = .ok b)
    (hturn : (b.openMonth m).untilTurn r events i e = .ok turn) :
    let fired := Books.firedUntil r events { balance := opening } before turn
    e.canFire r turn.moment =
      if fired.Stuck ⟨m, e⟩ then .error (.value (.wholeText ""))
      else .ok (decide (m.month = number ∧
        ∀ u ∈ fired, u.event.name = e.name → u.month.year ≠ m.year)) := by
  intro fired
  obtain ⟨rfl, hhistory⟩ := history_firedUntil hb hturn
  obtain ⟨k, hk, -⟩ := Registry.recurrence?_of_defect? (Registry.defect?_of_wire hw e he)
  obtain ⟨hyears, hle⟩ : fired.Pairwise (fun u t => u.month.year ≤ t.month.year) ∧
      ∀ u ∈ fired, u.month.year ≤ turn.month.year := years_firedUntil hs
  have hgate : e.canFire r turn.moment =
      if fired.Stuck ⟨turn.month, e⟩ then .error (.value (.wholeText ""))
      else .ok (decide (fired.MayFire ⟨turn.month, e⟩)) :=
    Trace.canFire_eq hhistory rfl hk
  rw [hgate]
  congr 2
  rw [decide_eq_decide, h.mayFire_iff, year_ne_of_getLast?_iff hyears hle]

end Turns

/-! ## Events of documents -/

namespace Document

/-- A yearly event that a document gives by its kind is one of the builder, with the conditions that
the document gives it. -/
theorem recurring_of_event {entries : List (String × Value)} {e : Event Float}
    (hkind : fieldOf entries "kind" = .text "recurring")
    (hfrequency : Value.lookup "frequency" entries = some (.text Recurrence.yearly.name))
    (h : event (.mapping entries) = .ok e) :
    ∃ head start stop, eventHead entries = .ok head ∧
      date (EventPlace.field "start") (fieldOf entries "start") = .ok (some start) ∧
      Event.recurring head.type head.name head.amount start stop (.text Recurrence.yearly.name)
        head.conditions head.metadata = .ok e := by
  obtain ⟨_, head, hentries, hhead, he⟩ := event_eq_ok.1 h
  cases hentries
  rw [hkind] at he
  rcases he with ⟨hnull, -⟩ | ⟨-, he⟩
  · cases hnull
  · replace he : recurringEvent head entries = .ok e := he
    obtain ⟨start, hstart, he⟩ := bind_eq_ok.1 he
    cases start with
    | none => cases he
    | some start =>
      obtain ⟨stop, -, he⟩ := bind_eq_ok.1 he
      rw [hfrequency, Option.getD_some] at he
      dsimp only at he
      split at he
      · rename_i e' hmade
        cases he
        exact ⟨head, start, stop, hhead, hstart, hmade⟩
      · exact absurd he problemShowing_ne_ok

end Document

/-- A yearly event of the builder is listed in months of its number only, in every run, whether the
run ends or a fault stops it. Whenever its turn comes, its gate is open in such a month, unless an
event of its name has fired in the year; it has no answer if one last fired in a year below zero. In
a run from the year zero on its turn comes in each month. Yearly events that documents give by their
kind are events of the builder. -/
theorem fires_in_anniversaryMonth {type name : String} {amount : α} {start : Date}
    {stop : Option Date} {conditions : List (Condition α)} {metadata : Option Value} {e : Event α}
    (he : Event.recurring type name amount start stop (.text Recurrence.yearly.name) conditions
      metadata = .ok e) :
    (∀ (r : Registry) (s : Scenario α) (first last : Date) (opening : α),
      Leaves (Books.ListsIn (anniversaryMonth start conditions) e)
        (s.writtenBooks r first last opening) ∧
      (r.wire s.events = .ok () → first.HasMonth → last.HasMonth →
        ∀ before m after, Date.window first last = before ++ m :: after →
        ∀ i : Nat, s.events[i]? = some e →
          (∀ b turn, ({ balance := opening } : Books α).evaluateMonths r s.events before = .ok b →
            (b.openMonth m).untilTurn r s.events i e = .ok turn →
            let fired := Books.firedUntil r s.events { balance := opening } before turn
            e.canFire r turn.moment =
              if fired.Stuck ⟨m, e⟩ then .error (.value (.wholeText ""))
              else .ok (decide (m.month = anniversaryMonth start conditions ∧
                ∀ u ∈ fired, u.event.name = e.name → u.month.year ≠ m.year))) ∧
          (0 ≤ first.year →
            ∃ b turn, ({ balance := opening } : Books α).evaluateMonths r s.events before = .ok b ∧
              (b.openMonth m).untilTurn r s.events i e = .ok turn ∧
              ¬ (Books.firedUntil r s.events { balance := opening } before turn).Stuck ⟨m, e⟩))) ∧
    ∀ (entries : List (String × Value)) (x : Event Float),
      Document.fieldOf entries "kind" = .text "recurring" →
      Value.lookup "frequency" entries = some (.text Recurrence.yearly.name) →
      Document.event (.mapping entries) = .ok x →
      ∃ head start stop, Document.eventHead entries = .ok head ∧
        Document.date (EventPlace.field "start") (Document.fieldOf entries "start") =
          .ok (some start) ∧
        Event.recurring head.type head.name head.amount start stop (.text Recurrence.yearly.name)
          head.conditions head.metadata = .ok x := by
  have hround := comesRound_recurring he
  refine ⟨fun r s first last opening => ⟨?_, ?_⟩, fun _ _ => Document.recurring_of_event⟩
  · exact KeptBy.leaves_writtenBooks (fun _ => hround.keptBy s.events) (fun _ => nofun) first last
  · intro hw hf hl before m after hwindow i hi
    rw [Date.window_eq_months hf hl] at hwindow
    have hs : (before ++ m :: after).Pairwise (· < ·) := hwindow ▸ Date.months_ascend
    have hs' : (before ++ [m]).Pairwise (· < ·) :=
      hs.sublist ((List.singleton_sublist.2 List.mem_cons_self).append_left before)
    refine ⟨fun b turn => hround.canFire_eq hw (List.mem_of_getElem? hi) hs', fun hy => ?_⟩
    have hnonneg : ∀ d ∈ before ++ m :: after, 0 ≤ d.year := fun d hd =>
      Int.le_trans hy (Date.year_le_of_mem_months hf (hwindow ▸ hd))
    obtain ⟨b, -, hb, -, hfollows, -⟩ :=
      exists_month (Registry.defect?_of_wire hw) opening hs hnonneg
    obtain ⟨hbefore, hm⟩ := List.forall_mem_append.1 hnonneg
    have hm : 0 ≤ m.year := hm m List.mem_cons_self
    obtain ⟨-, -, turn, -, -, hturn, -⟩ := exists_untilTurn (Registry.defect?_of_wire hw) hfollows
      (fun u hu => hbefore _ (mem_turns.1 (mem_of_mem_ofTurns hu)).1) hm hi
    refine ⟨b, turn, hb, hturn, not_stuck_of_nonneg (fun u hu => ?_) _⟩
    obtain ⟨hmonth, -⟩ := history_firedUntil hb hturn
    rcases month_of_mem_firedUntil hu with hu | hu
    · exact hbefore _ hu
    · rw [hu, hmonth]
      exact hm

/-- An insurance from March 2025 on, with a range from June 2024 on among its conditions. -/
def insurance : Event Rat where
  name := "Insurance"
  type := "expense"
  amount := 1
  recurrence := "yearly"
  conditions := [.dateInRange ⟨2024, 6, 1⟩ none, .dateInRange ⟨2025, 3, 1⟩ none]

def insured : Scenario Rat := ⟨"Insured", [insurance]⟩

/-- It comes round in June, and in the March of its start the gate is shut. -/
theorem fires_in_anniversaryMonth_insured :
    let start : Books Rat := { balance := 0 }
    Event.recurring "expense" "Insurance" 1 ⟨2025, 3, 1⟩ none (.text Recurrence.yearly.name)
        [.dateInRange ⟨2024, 6, 1⟩ none] none = .ok insurance ∧
      anniversaryMonth ⟨2025, 3, 1⟩ [(.dateInRange ⟨2024, 6, 1⟩ none : Condition Rat)] = 6 ∧
      ((insured.writtenBooks .full ⟨2025, 1, 1⟩ ⟨2026, 12, 1⟩ 0).toOption.map fun b =>
        (listing b.cashflow).map fun p => (p.1, p.2.name)) =
          some [("2025-06", "Insurance"), ("2026-06", "Insurance")] ∧
      (∀ first last : Date,
        Leaves (Books.ListsIn 6 insurance) (insured.writtenBooks .full first last 0)) ∧
      insurance.canFire .full (start.openMonth ⟨2025, 3, 1⟩).moment = .ok false ∧
      insurance.canFire .full (start.openMonth ⟨2025, 6, 1⟩).moment = .ok true := by
  intro start
  have hmade : Event.recurring "expense" "Insurance" 1 ⟨2025, 3, 1⟩ none
      (.text Recurrence.yearly.name) [.dateInRange ⟨2024, 6, 1⟩ none] none = .ok insurance := rfl
  have hmonth : anniversaryMonth ⟨2025, 3, 1⟩
      [(.dateInRange ⟨2024, 6, 1⟩ none : Condition Rat)] = 6 := rfl
  have hruns := (fires_in_anniversaryMonth hmade).1
  rw [hmonth] at hruns
  have hgate : ∀ m : Date, m.HasMonth → Date.months m m = [m] →
      insurance.canFire .full (start.openMonth m).moment = .ok (decide (m.month = 6)) := by
    intro m hm hmonths
    have hwindow : Date.window m m = [] ++ m :: [] := (Date.window_eq_months hm hm).trans hmonths
    have h := ((hruns .full insured m m 0).2 rfl hm hm [] m [] hwindow 0 rfl).1 _ _ rfl rfl
    -- Nothing has fired in the first month yet.
    have hfired : Books.firedUntil .full insured.events start [] (start.openMonth m) = [] := rfl
    dsimp only at h
    rw [hfired, if_neg (by simp [Stuck, named])] at h
    rw [h]
    simp
  have hwritten : Date.reachesUnwritten ⟨2025, 1, 1⟩ ⟨2026, 12, 1⟩ = false := by decide +kernel
  refine ⟨hmade, hmonth, ?_, fun first last => (hruns .full insured first last 0).1, ?_, ?_⟩
  · rw [(books_eq_trace .full insured 0 rfl (by decide) (by decide) (by decide)).2 hwritten]
    decide +kernel
  · exact hgate ⟨2025, 3, 1⟩ (by decide) (by decide +kernel)
  · exact hgate ⟨2025, 6, 1⟩ (by decide) (by decide +kernel)

end Cashflow

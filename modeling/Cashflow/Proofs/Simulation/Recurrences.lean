import Cashflow.Proofs.Simulation.Outcome
import Cashflow.Proofs.Simulation.Places
import Cashflow.Proofs.Simulation.Session

/-!
# What once and yearly mean

In a session, whatever its months and its events are:

* an event that may fire once fires only if none of its name has fired, so among all such events of
  a name one fires at most, at most once (`once_fires_once`);
* a yearly event fires in its month only, and if the months never go backwards, only if none of its
  name has fired in the year; so among all yearly events of a name one fires at most in each year
  (`yearly_fires_once_a_year`).

The history keeps the last firing of a name only. That none has fired in the year follows because
firings before the last lie in its year or in an earlier one.
-/

namespace Cashflow
open Trace

/-! ## Firings that rule each other out -/

theorem countP_le_one {β : Type} {p : β → Bool} {l : List β}
    (h : ∀ before t after, l = before ++ t :: after → p t = true → ∀ u ∈ before, ¬ p u = true) :
    l.countP p ≤ 1 := by
  induction l with
  | nil => exact Nat.zero_le 1
  | cons x l ih =>
    by_cases hx : p x = true
    · have hrest : l.countP p = 0 := by
        rw [List.countP_eq_zero]
        intro t ht hp
        obtain ⟨before, after, rfl⟩ := List.append_of_mem ht
        exact h (x :: before) t after rfl hp x List.mem_cons_self hx
      exact Nat.le_of_eq ((List.countP_cons_of_pos hx).trans (congrArg (· + 1) hrest))
    · rw [List.countP_cons_of_neg hx]
      exact ih fun before t after he hp u hu =>
        h (x :: before) t after (congrArg (x :: ·) he) hp u (List.mem_cons_of_mem x hu)

namespace Trace
variable {α : Type} {H : Trace α} {before after : List (Turn α)} {t u : Turn α} {name : String}

theorem Allowed.name_ne_of_once (h : H.Allowed) (he : H = before ++ t :: after)
    (hr : t.event.recurrence = Recurrence.once.name) : ∀ u ∈ before, u.event.name ≠ t.event.name :=
  (mayFire_once hr).1 (h before t after he)

theorem Allowed.countP_once_le (h : H.Allowed) (name : String) :
    (H.named name).countP (fun t => t.event.recurrence = Recurrence.once.name) ≤ 1 := by
  rw [named, List.countP_filter]
  refine countP_le_one fun before t after he ht u hu hu' => ?_
  simp only [Bool.and_eq_true, decide_eq_true_eq] at ht hu'
  exact h.name_ne_of_once he ht.1 u hu (hu'.2.trans ht.2.symm)

/-- A name of events that may fire once only has one firing, if it is in the history. -/
theorem Allowed.count_eq_one (h : H.Allowed)
    (honce : ∀ u ∈ H, u.event.name = name → u.event.recurrence = Recurrence.once.name)
    {f : Firings} (hf : H.history.get? name = some f) : f.count = 1 := by
  have hone := h.countP_once_le name
  have hall : (H.named name).countP (fun t => t.event.recurrence = Recurrence.once.name) =
      (H.named name).length := by
    rw [List.countP_eq_length]
    intro u hu
    obtain ⟨hu, hname⟩ := List.mem_filter.1 hu
    exact decide_eq_true (honce u hu (of_decide_eq_true hname))
  rw [get?_history] at hf
  obtain ⟨a, ha, hf⟩ := Option.bind_eq_some_iff.1 hf
  obtain ⟨z, -, rfl⟩ := Option.map_eq_some_iff.1 hf
  have hpos : 0 < (H.named name).length := List.length_pos_of_mem (List.mem_of_mem_head? ha)
  show (H.named name).length = 1
  omega

/-- Along years that never go backwards the last firing of a name has the greatest. -/
theorem year_le_of_getLast? (hyears : H.Pairwise fun u t => u.month.year ≤ t.month.year)
    (hu : u ∈ H.named name) {z : Turn α} (hz : (H.named name).getLast? = some z) :
    u.month.year ≤ z.month.year := by
  obtain ⟨front, hfront⟩ := List.getLast?_eq_some_iff.1 hz
  have hnamed : (H.named name).Pairwise fun u t => u.month.year ≤ t.month.year := hyears.filter _
  rw [hfront] at hu hnamed
  rcases List.mem_append.1 hu with hu | hu
  · exact (List.pairwise_append.1 hnamed).2.2 u hu z (List.mem_singleton_self z)
  · obtain rfl := List.mem_singleton.1 hu
    exact Int.le_refl _

/-- Up to some year, the last firing of a name is not in it exactly if none is. -/
theorem year_ne_of_getLast?_iff (hyears : H.Pairwise fun u t => u.month.year ≤ t.month.year)
    {year : Int} (hle : ∀ u ∈ H, u.month.year ≤ year) :
    (∀ z ∈ (H.named name).getLast?, z.month.year ≠ year) ↔
      ∀ u ∈ H, u.event.name = name → u.month.year ≠ year := by
  constructor
  · intro hlast u hu hname
    have hmem : u ∈ H.named name := List.mem_filter.2 ⟨hu, decide_eq_true hname⟩
    obtain ⟨z, hz⟩ := Option.ne_none_iff_exists'.1
      (mt List.getLast?_eq_none_iff.1 (List.ne_nil_of_mem hmem))
    have huz : u.month.year ≤ z.month.year := year_le_of_getLast? hyears hmem hz
    have hzle : z.month.year ≤ year := hle z (List.mem_filter.1 (List.mem_of_getLast? hz)).1
    have hne : z.month.year ≠ year := hlast z hz
    omega
  · intro hall z hz
    obtain ⟨hz, hname⟩ := List.mem_filter.1 (List.mem_of_getLast? hz)
    exact hall z hz (of_decide_eq_true hname)

theorem Allowed.year_ne_of_yearly (h : H.Allowed)
    (hyears : H.Pairwise fun u t => u.month.year ≤ t.month.year) (he : H = before ++ t :: after)
    (hr : t.event.recurrence = Recurrence.yearly.name) :
    ∀ u ∈ before, u.event.name = t.event.name → u.month.year ≠ t.month.year := by
  obtain ⟨range, -, -, hlast⟩ := (mayFire_yearly hr).1 (h before t after he)
  rw [he] at hyears
  obtain ⟨hbefore, -, hupto⟩ := List.pairwise_append.1 hyears
  exact (year_ne_of_getLast?_iff hbefore fun u hu => hupto u hu t List.mem_cons_self).1 hlast

theorem Allowed.countP_yearly_le (h : H.Allowed)
    (hyears : H.Pairwise fun u t => u.month.year ≤ t.month.year) (name : String) (year : Int) :
    (H.named name).countP (fun t =>
      t.event.recurrence = Recurrence.yearly.name ∧ t.month.year = year) ≤ 1 := by
  rw [named, List.countP_filter]
  refine countP_le_one fun before t after he ht u hu hu' => ?_
  simp only [Bool.and_eq_true, decide_eq_true_eq] at ht hu'
  exact h.year_ne_of_yearly hyears he ht.1.1 u hu (hu'.2.trans ht.2.symm)
    (hu'.1.2.trans ht.1.2.symm)

end Trace

variable {α : Type} [Amount α]

/-! ## Once -/

/-- In a session an event that may fire once fires only before all others of its name, and at most
one of them does. In a run a name of such events only has fired once or not at all. -/
theorem once_fires_once (r : Registry) (tasks : List (MonthTask α)) (opening : α) :
    let start : Books α := { balance := opening }
    let H := start.firings r tasks
    (start.session r tasks).history = H.history ∧
    (∀ before t after, H = before ++ t :: after → t.event.recurrence = Recurrence.once.name →
      ∀ u ∈ before, u.event.name ≠ t.event.name) ∧
    (∀ name, (H.named name).countP (fun t => t.event.recurrence = Recurrence.once.name) ≤ 1) ∧
    ∀ (s : Scenario α) (first last : Date) (run : Run α),
      s.writtenRun r first last opening = .ok run →
      ∀ name, (∀ e ∈ s.events, e.name = name → e.recurrence = Recurrence.once.name) →
        ∀ f ∈ run.history.get? name, f.count = 1 := by
  intro start H
  have hstart := explains_start opening
  have hsession : ∀ tasks, Explains (start.firings r tasks) (start.session r tasks).history :=
    explains_session hstart
  have hallowed : H.Allowed := (hsession tasks).allowed
  refine ⟨(hsession tasks).history, fun _ _ _ he hr => hallowed.name_ne_of_once he hr,
    hallowed.countP_once_le, ?_⟩
  intro s first last run hrun name honce f hf
  obtain ⟨-, -, b, hb, rfl⟩ := Scenario.writtenRun_eq_ok_iff.1 hrun
  have hf : b.history.get? name = some f := hf
  rw [evaluateMonths_eq_session hb, (hsession _).history] at hf
  refine (hsession _).allowed.count_eq_one (fun u hu hname => honce _ ?_ hname) hf
  obtain ⟨task, htask, -, hevent⟩ := mem_firings hstart hu
  obtain ⟨m, -, rfl⟩ := List.mem_map.1 htask
  exact (List.mem_append.1 hevent).elim List.mem_of_mem_filter List.mem_of_mem_filter

/-- A gift that is made once, and one of the same name that is made each month. -/
def gifts : List (Event Rat) := [
  { name := "Gift", type := "expense", amount := 10, recurrence := "once" },
  { name := "Gift", type := "expense", amount := 20, recurrence := "monthly" }]

/-- March twice, and January between; the gift of each month comes up last, before the other. -/
def giftTasks : List (MonthTask Rat) := [
  ⟨⟨2025, 3, 1⟩, gifts.take 1, []⟩,
  ⟨⟨2025, 1, 1⟩, gifts.take 1, []⟩,
  ⟨⟨2025, 3, 1⟩, gifts.drop 1, gifts.take 1⟩]

theorem once_fires_once_gifts :
    let H := ({ balance := 0 } : Books Rat).firings .full giftTasks
    H.map (fun t => (t.month.key, t.event.recurrence)) =
        [("2025-03", "once"), ("2025-03", "monthly")] ∧
      (H.named "Gift").countP (fun t => t.event.recurrence = Recurrence.once.name) ≤ 1 ∧
      ∃ run, household.writtenRun .full ⟨2025, 1, 15⟩ ⟨2025, 3, 2⟩ 0 = .ok run ∧
        ∃ f ∈ run.history.get? "Car", f.count = 1 := by
  obtain ⟨-, -, hgift, hruns⟩ := once_fires_once .full giftTasks 0
  have hrun := writtenRun_household
  have hcar : ∀ e ∈ household.events, e.name = "Car" → e.recurrence = Recurrence.once.name := by
    decide
  refine ⟨by decide +kernel, hgift "Gift", _, hrun, ⟨"2025-02", "2025-02", 1⟩, by decide +kernel,
    ?_⟩
  exact hruns household _ _ _ hrun "Car" hcar _ (by decide +kernel)

/-! ## Yearly -/

/-- In a session whose months never go backwards a yearly event fires in its month, as the first of
its name in the year, and at most one yearly event of a name does. -/
theorem yearly_fires_once_a_year (r : Registry) {tasks : List (MonthTask α)} (opening : α)
    (hm : tasks.Pairwise fun p q => p.month.startOfMonth ≤ q.month.startOfMonth) :
    let start : Books α := { balance := opening }
    let H := start.firings r tasks
    (start.session r tasks).history = H.history ∧
    (∀ before t after, H = before ++ t :: after → t.event.recurrence = Recurrence.yearly.name →
      (∃ range ∈ t.event.dateRange?, t.month.month = range.1.month) ∧
        ∀ u ∈ before, u.event.name = t.event.name → u.month.year ≠ t.month.year) ∧
    ∀ name year, (H.named name).countP (fun t =>
      t.event.recurrence = Recurrence.yearly.name ∧ t.month.year = year) ≤ 1 := by
  intro start H
  have hstart := explains_start opening
  have hexplains : H.Explains (start.session r tasks).history := explains_session hstart tasks
  have hyears : H.Pairwise fun u t => u.month.year ≤ t.month.year := by
    refine pairwise_firings (R := fun m n => m.year ≤ n.year) (fun m => Int.le_refl m.year) hstart
      (hm.imp fun {p q} hpq => ?_)
    simp only [Date.le_iff_not_lt, Date.lt_iff, Date.startOfMonth] at hpq
    omega
  refine ⟨hexplains.history, fun before t after he hr => ⟨?_, ?_⟩,
    hexplains.allowed.countP_yearly_le hyears⟩
  · obtain ⟨range, hrange, hmonth, -⟩ := (mayFire_yearly hr).1 (hexplains.allowed before t after he)
    exact ⟨range, hrange, hmonth⟩
  · exact hexplains.allowed.year_ne_of_yearly hyears he hr

/-- Dues that fall due in March and dues of the same name that fall due in June. -/
def dues : List (Event Rat) := [
  { name := "Dues", type := "expense", amount := 5, recurrence := "yearly",
    conditions := [.dateInRange ⟨2024, 6, 1⟩ none] },
  { name := "Dues", type := "expense", amount := 7, recurrence := "yearly",
    conditions := [.dateInRange ⟨2024, 3, 1⟩ none] }]

/-- Each month is evaluated twice; the dues of June come too late in 2025. -/
def duesTasks : List (MonthTask Rat) :=
  [⟨2024, 6, 1⟩, ⟨2024, 6, 1⟩, ⟨2025, 3, 1⟩, ⟨2025, 3, 1⟩, ⟨2025, 6, 1⟩, ⟨2025, 6, 1⟩].map
    fun m => ⟨m, dues, []⟩

theorem yearly_fires_once_a_year_dues :
    (duesTasks.Pairwise fun p q => p.month.startOfMonth ≤ q.month.startOfMonth) ∧
    let H := ({ balance := 0 } : Books Rat).firings .full duesTasks
    H.map (fun t => (t.month.key, t.event.amount)) = [("2024-06", 5), ("2025-03", 7)] ∧
      ∀ year, (H.named "Dues").countP (fun t =>
        t.event.recurrence = Recurrence.yearly.name ∧ t.month.year = year) ≤ 1 := by
  have hm : duesTasks.Pairwise fun p q => p.month.startOfMonth ≤ q.month.startOfMonth := by
    decide +kernel
  obtain ⟨-, -, hyear⟩ := yearly_fires_once_a_year .full 0 hm
  exact ⟨hm, by decide +kernel, hyear "Dues"⟩

end Cashflow

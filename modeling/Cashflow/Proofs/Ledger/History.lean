import Cashflow.Proofs.Ledger.Conservation

/-!
# The firing history and the ledger

The history of a run is that of its ledger: it has a record of the names that are listed in some
month, in the order in which they are first listed, and the record has the first and the last month
that list the name and the number of the listings in all months (`writtenRun_history`).

The ledger lists the firings of the trace, month by month (`listed_books`), so all of it is read off
the trace, and so are the months in which a name fired (`Trace.firingsOf_books`).
-/

namespace Cashflow
open Trace

variable {α : Type} [Amount α]

/-! ## What a ledger lists -/

namespace Run

/-- The listed events, month by month. -/
def listed (run : Run α) : List (Event α) :=
  run.cashflow.values.flatMap fun t => t.events

/-- The names of the listed events, month by month. -/
def namesListed (run : Run α) : List String :=
  run.listed.map Event.name

/-- The listings of a name, each with its month, in order. -/
def firingsOf (run : Run α) (name : String) : List (String × Event α) :=
  run.cashflow.entries.flatMap fun m =>
    (m.2.events.filter fun e => e.name = name).map fun e => (m.1, e)

/-- The months that list an event of the name, in order. -/
def monthsListing (run : Run α) (name : String) : List String :=
  (run.cashflow.entries.filter fun m => m.2.events.any fun e => e.name = name).map Prod.fst

/-- How often an event of the name is listed, in all months. -/
def timesListed (run : Run α) (name : String) : Nat :=
  run.listed.countP fun e => e.name = name

end Run

/-! ## What a trace lists -/

/-- Of the months that have a firing at one of their ends, the first is the month of the first such
firing. -/
theorem head?_months_filter {β : Type} {ends : Date → Option (Turn β)} {p : Date → Bool}
    (months : List Date) (hp : ∀ m, p m = (ends m).isSome)
    (hm : ∀ m, ∀ t ∈ ends m, t.month = m) :
    ((months.filter p).map Date.key).head? =
      (months.findSome? ends).map fun t => t.month.key := by
  induction months with
  | nil => rfl
  | cons m months ih =>
    cases he : ends m with
    | none =>
      have : ¬ p m = true := by simp [hp m, he]
      rw [List.filter_cons_of_neg this, List.findSome?_cons_of_isNone (by simp [he]), ih]
    | some t =>
      have : p m = true := by simp [hp m, he]
      rw [List.filter_cons_of_pos this, List.findSome?_cons_of_isSome (by simp [he]), he]
      simp [hm m t he]

section Listings
variable (opening : α) (scenario : String) {months : List Date}
  (hk : (months.map Date.key).Nodup) {H : Trace α}
include hk

theorem Trace.monthsListing_books (name : String) :
    (Run.ofBooks scenario opening (H.books opening months)).monthsListing name =
      (months.filter fun m => named (H.during m) name ≠ []).map Date.key := by
  show (((H.books opening months).cashflow.entries.filter _).map Prod.fst) = _
  rw [entries_cashflow opening hk, List.filter_map, List.map_map]
  congr 1
  apply List.filter_congr
  intro m _
  rw [Bool.eq_iff_iff, decide_eq_true_iff, Ne, named_eq_nil_iff]
  simp [Trace.entry]

variable (h : H = months.flatMap H.during)
include h

theorem Trace.head?_monthsListing (name : String) :
    ((Run.ofBooks scenario opening (H.books opening months)).monthsListing name).head? =
      (H.named name).head?.map fun t => t.month.key := by
  rw [monthsListing_books opening scenario hk, named_eq_flatMap h, List.head?_flatMap]
  apply head?_months_filter
  · intro m
    rw [Bool.eq_iff_iff, decide_eq_true_iff, List.isSome_head?]
  · exact fun m t ht => (mem_during (List.mem_filter.1 (List.mem_of_mem_head? ht)).1).2

theorem Trace.getLast?_monthsListing (name : String) :
    ((Run.ofBooks scenario opening (H.books opening months)).monthsListing name).getLast? =
      (H.named name).getLast?.map fun t => t.month.key := by
  rw [monthsListing_books opening scenario hk, named_eq_flatMap h, List.getLast?_flatMap,
    ← List.head?_reverse, ← List.map_reverse, ← List.filter_reverse]
  apply head?_months_filter
  · intro m
    rw [Bool.eq_iff_iff, decide_eq_true_iff, List.getLast?_isSome]
  · exact fun m t ht => (mem_during (List.mem_filter.1 (List.mem_of_mem_getLast? ht)).1).2

/-- A run lists the firings of its trace, in order. -/
theorem Trace.listed_books :
    (Run.ofBooks scenario opening (H.books opening months)).listed = H.map Turn.event := by
  show (H.books opening months).cashflow.values.flatMap _ = _
  rw [values_cashflow opening hk, List.flatMap_map]
  conv_rhs => rw [h, List.map_flatMap]
  rfl

theorem Trace.namesListed_books :
    (Run.ofBooks scenario opening (H.books opening months)).namesListed =
      H.map fun t => t.event.name := by
  rw [Run.namesListed, listed_books opening scenario hk h, List.map_map]
  rfl

theorem Trace.timesListed_books (name : String) :
    (Run.ofBooks scenario opening (H.books opening months)).timesListed name =
      (H.named name).length := by
  rw [Run.timesListed, listed_books opening scenario hk h, List.countP_map, named,
    List.countP_eq_length_filter]
  rfl

theorem Trace.firingsOf_books (name : String) :
    (Run.ofBooks scenario opening (H.books opening months)).firingsOf name =
      (H.named name).map fun t => (t.month.key, t.event) := by
  show (H.books opening months).cashflow.entries.flatMap _ = _
  rw [entries_cashflow opening hk, List.flatMap_map, named_eq_flatMap h, List.map_flatMap]
  congr 1
  funext m
  show (((H.during m).map Turn.event).filter _).map _ = _
  rw [List.filter_map, List.map_map]
  refine List.map_congr_left fun t ht => ?_
  rw [(mem_during (List.mem_filter.1 ht).1).2]
  rfl

end Listings

/-- The history of a run that returns is that of its ledger. -/
theorem writtenRun_history (r : Registry) (s : Scenario α) {first last : Date} (opening : α)
    {run : Run α} (hf : first.HasMonth) (hl : last.HasMonth)
    (h : s.writtenRun r first last opening = .ok run) :
    run.cashflow.keys = Date.keys first last ∧
    (∀ name, name ∈ run.history.keys ↔
      ∃ t ∈ run.cashflow.values, ∃ e ∈ t.events, e.name = name) ∧
    (∀ name f, run.history.get? name = some f →
      (run.monthsListing name).head? = some f.first ∧
      (run.monthsListing name).getLast? = some f.last ∧
      f.count = run.timesListed name) ∧
    run.history.keys = run.namesListed.eraseDups := by
  obtain rfl := eq_of_writtenRun_ok hf hl h
  have hk : ((Date.months first last).map Date.key).Nodup := Date.nodup_keys
  have hn : (Date.months first last).Nodup := Date.nodup_months
  have hspan := ofTurns_eq_flatMap opening s.events hn
  generalize ofTurns opening (turns (Date.months first last) s.events) = H at hspan ⊢
  have hkeys : H.history.keys = (Run.ofBooks s.name opening
      (H.books opening (Date.months first last))).namesListed.eraseDups := by
    rw [namesListed_books opening s.name hk hspan]
    exact keys_history H
  refine ⟨keys_cashflow opening hk H, fun name => ?_, fun name f hget => ?_, hkeys⟩
  · change name ∈ H.history.keys ↔ _
    rw [hkeys, List.mem_eraseDups]
    simp only [Run.namesListed, Run.listed, List.mem_map, List.mem_flatMap]
    constructor
    · rintro ⟨e, ⟨t, ht, he⟩, rfl⟩
      exact ⟨t, ht, e, he, rfl⟩
    · rintro ⟨t, ht, e, he, rfl⟩
      exact ⟨e, ⟨t, ht, he⟩, rfl⟩
  · change H.history.get? name = some f at hget
    rw [get?_history] at hget
    obtain ⟨a, ha, hget⟩ := Option.bind_eq_some_iff.1 hget
    obtain ⟨z, hz, rfl⟩ := Option.map_eq_some_iff.1 hget
    refine ⟨?_, ?_, ?_⟩
    · rw [head?_monthsListing opening s.name hk hspan, ha]
      rfl
    · rw [getLast?_monthsListing opening s.name hk hspan, hz]
      rfl
    · rw [timesListed_books opening s.name hk hspan]

theorem writtenRun_history_household :
    ∃ run, household.writtenRun .full ⟨2025, 1, 15⟩ ⟨2025, 3, 2⟩ 0 = .ok run ∧
      run.history.keys = run.namesListed.eraseDups ∧
      run.history.entries = [("Salary", ⟨"2025-01", "2025-03", 3⟩),
        ("Car", ⟨"2025-02", "2025-02", 1⟩), ("Insurance", ⟨"2025-02", "2025-03", 2⟩),
        ("Bonus", ⟨"2025-03", "2025-03", 1⟩)] := by
  have h := writtenRun_household
  refine ⟨_, h, ?_, by decide +kernel⟩
  exact (writtenRun_history .full household 0 (by decide) (by decide) h).2.2.2

end Cashflow

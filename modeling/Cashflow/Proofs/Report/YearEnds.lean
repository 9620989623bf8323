import Cashflow.Proofs.Calendar.Decembers
import Cashflow.Proofs.Report.Frequencies
import Cashflow.Proofs.Calendar.DateText
import Cashflow.Report.Overview

/-!
# Balances at the ends of years

A run over a window has a balance for every December in it (`Run.yearEnds`). Three reports show them:
the key figure that reads the keys of the months (`yearEndBalances_eq`), the overview that asks for
the Decembers year by year (`balanceByYear_eq`), and the yearly frame, in the row of the year
(`showsYearEnds_yearly`). `overview_yearEnds` has all three.
-/

namespace Cashflow
open Cashflow.Text

/-! ## Keys of Decembers -/

theorem Run.isYearEnd_key {d : Date} (hd : d.HasMonth) :
    Run.isYearEnd d.key = decide (d.month = 12) := by
  obtain ⟨hm, hm'⟩ := hd
  have hend : "-12".toList = ['-', digitChar 1, digitChar 2] := rfl
  rw [Bool.eq_iff_iff, decide_eq_true_iff, isYearEnd, List.isPrefixOf_iff_prefix,
    List.reverse_prefix, hend, Date.toList_key, padded_two (by omega) (by omega)]
  constructor
  · rintro ⟨front, h⟩
    obtain ⟨-, hkey⟩ := List.append_inj' h rfl
    simp only [List.cons.injEq, true_and, and_true] at hkey
    have htens := digitChar_inj (by decide) (by omega) hkey.1
    have hones := digitChar_inj (by decide) (by omega) hkey.2
    omega
  · intro h
    rw [h]
    exact List.suffix_append _ _

theorem Run.yearOf_key {d : Date} (hy : 0 ≤ d.year) (hwritten : d.isUnwritten = false) :
    Run.yearOf d.key = .ok d.year := by
  have hshort : isTooLong d.year = false := d.isUnwritten_eq_isTooLong.symm.trans hwritten
  rw [yearOf, Date.keyYear_key hy hshort]
  rfl

/-! ## Balances by month -/

theorem mem_yearsThrough {first last y : Int} :
    y ∈ yearsThrough first last ↔ first ≤ y ∧ y ≤ last := by
  simp only [yearsThrough, List.mem_map, List.mem_range]
  constructor
  · rintro ⟨i, hi, rfl⟩
    omega
  · exact fun h => ⟨(y - first).toNat, by omega, by omega⟩

theorem ascend_yearsThrough (first last : Int) : (yearsThrough first last).Pairwise (· < ·) := by
  rw [yearsThrough, List.pairwise_map]
  exact List.pairwise_lt_range.imp fun h => by omega

namespace Run
section YearEnds
variable {α : Type} [Amount α]

/-- The balance after a month. -/
def balanceOf (run : Run α) (month : Date) : α := (run.balances.get? month.key).getD run.opening

/-- The balances after the Decembers from `first` to `last`, by year. -/
def yearEnds (run : Run α) (first last : Date) : List (Int × α) :=
  (Date.decembers first last).map fun d => (d.year, run.balanceOf d)

variable {run : Run α} {first last : Date} (hmonths : run.months = Date.keys first last)
include hmonths

theorem entries_balances_eq :
    run.balances.entries = (Date.months first last).map fun d => (d.key, run.balanceOf d) := by
  have hkeys : run.balances.keys = (Date.months first last).map Date.key := hmonths
  rw [run.balances.entries_eq_map_get? run.opening, hkeys, List.map_map]
  rfl

theorem values_balances_eq :
    run.balances.values = (Date.months first last).map run.balanceOf := by
  rw [Keyed.values, entries_balances_eq hmonths, List.map_map]
  rfl

theorem get?_of_mem_months {d : Date} (hd : d ∈ Date.months first last) :
    run.balances.get? d.key = some (run.balanceOf d) := by
  have hkey : d.key ∈ run.months := hmonths ▸ List.mem_map_of_mem hd
  have hsome : (run.balances.get? d.key).isSome = true := by
    rwa [← Keyed.contains_eq_isSome, Keyed.contains_iff]
  obtain ⟨b, hb⟩ := Option.isSome_iff_exists.1 hsome
  rw [balanceOf, hb, Option.getD_some]

theorem get?_of_not_mem_months {d : Date} (hd : d.HasMonth) (hday : d.day = 1)
    (h : d ∉ Date.months first last) : run.balances.get? d.key = none := by
  rw [Keyed.get?_eq_find]
  refine Keyed.find_of_not_mem _ _ fun hkey => h ?_
  have hkey' : d.key ∈ Date.keys first last := hmonths ▸ hkey
  exact Date.mem_months.2 ⟨hd, hday, (Date.key_mem_keys_iff hd).1 hkey'⟩

/-! ## Three reports -/

/-- The keys of the months are read back to years. -/
theorem yearEndBalances_eq (hf : first.HasMonth) (hl : last.HasMonth) (hy : 0 ≤ first.year)
    (hwritten : Date.reachesUnwritten first last = false) :
    ∃ ends, run.yearEndBalances = .ok ends ∧ ends.entries = run.yearEnds first last := by
  have hread : ∀ d ∈ Date.decembers first last, yearOf d.key = .ok d.year := by
    intro d hd
    have hmem := (Date.mem_decembers.1 hd).1
    exact yearOf_key (Int.le_trans hy (Date.year_le_of_mem_months hf hmem))
      (Date.isUnwritten_of_mem_months hf hl hwritten hmem)
  have hfold : ∀ (months : List Date) (m : Keyed Int α),
      (∀ d ∈ months, yearOf d.key = .ok d.year) →
      (months.map fun d => (d.key, run.balanceOf d)).foldlM
          (fun m e => (yearOf e.1).map fun y => m.put y e.2) m =
        .ok ((months.map fun d => (d.year, run.balanceOf d)).foldl (fun m e => m.put e.1 e.2) m) := by
    intro months m hmonths
    induction months generalizing m with
    | nil => rfl
    | cons d months ih =>
      obtain ⟨hd, hmonths⟩ := List.forall_mem_cons.1 hmonths
      rw [List.map_cons, List.foldlM_cons, hd]
      exact ih _ hmonths
  have hfilter : run.balances.entries.filter (fun e => isYearEnd e.1) =
      (Date.decembers first last).map fun d => (d.key, run.balanceOf d) := by
    rw [entries_balances_eq hmonths, List.filter_map]
    exact congrArg _ (List.filter_congr fun d hd => isYearEnd_key (Date.mem_months.1 hd).1)
  have hyears : ((run.yearEnds first last).map Prod.fst).Nodup := by
    rw [yearEnds, List.map_map]
    exact Date.year_ascend_decembers.imp Int.ne_of_lt
  refine ⟨.ofList (run.yearEnds first last), ?_, Keyed.entries_ofList _ hyears⟩
  rw [yearEndBalances, hfilter]
  exact hfold _ _ hread

/-- The Decembers are asked for by year. -/
theorem balanceByYear_eq (hf : first.HasMonth) (hl : last.HasMonth) :
    balanceByYear run first.year last.year = run.yearEnds first last := by
  have hyears : (yearsThrough first.year last.year).filter
      (fun y => ⟨y, 12, 1⟩ ∈ Date.months first last) = (Date.decembers first last).map Date.year := by
    refine ((ascend_yearsThrough _ _).filter _).eq_of_mem_iff Date.year_ascend_decembers fun y => ?_
    rw [List.mem_filter, decide_eq_true_eq, Date.mk_mem_decembers_iff, mem_yearsThrough, List.mem_map]
    refine and_iff_right_of_imp ?_
    rintro ⟨d, hd, rfl⟩
    have hmem := (Date.mem_decembers.1 hd).1
    exact ⟨Date.year_le_of_mem_months hf hmem, Date.le_year_of_mem_months hl hmem⟩
  have hasked : ∀ y : Int, (run.balances.get? (yearEndKey y)).map (fun b => (y, b)) =
      if decide (⟨y, 12, 1⟩ ∈ Date.months first last) then
        some (y, run.balanceOf ⟨y, 12, 1⟩) else none := by
    intro y
    by_cases h : ⟨y, 12, 1⟩ ∈ Date.months first last
    · rw [if_pos (decide_eq_true h), yearEndKey, get?_of_mem_months hmonths h]
      rfl
    · rw [if_neg (by simpa using h), yearEndKey,
        get?_of_not_mem_months hmonths (Date.hasMonth_december y) rfl h]
      rfl
  have hbalance : ∀ d ∈ Date.decembers first last,
      run.balanceOf ⟨d.year, 12, 1⟩ = run.balanceOf d := by
    intro d hd
    have hkey : Date.key ⟨d.year, 12, 1⟩ = d.key :=
      Date.key_eq_of rfl (Date.mem_decembers.1 hd).2.symm
    rw [balanceOf, hkey, balanceOf]
  rw [balanceByYear, List.filterMap_congr fun y _ => hasked y, ← List.filterMap_filter, hyears,
    List.filterMap_eq_map', List.map_map]
  exact List.map_congr_left fun d hd => congrArg (Prod.mk d.year) (hbalance d hd)

theorem get?_last (hl : last.HasMonth) (h : first.index ≤ last.index) :
    run.balances.get? last.key = some run.finalBalance := by
  have hlast : last.startOfMonth ∈ Date.months first last :=
    Date.mem_months.2 ⟨hl, rfl, h, Int.le_refl _⟩
  show run.balances.get? last.startOfMonth.key = _
  rw [get?_of_mem_months hmonths hlast, finalBalance, values_balances_eq hmonths, List.getLast?_map,
    Date.getLast?_months hl h]
  rfl

end YearEnds
end Run

/-! ## The yearly frame -/

/-- Every year-end is the balance in the one row of its year. -/
structure Frame.ShowsYearEnds {α : Type} (f : Frame α) (ends : List (Int × α)) : Prop where
  labels : f.labels.Nodup
  rows : ∃ balances, f.column? "balance" = some (.amounts balances) ∧
    balances.length = f.labels.length ∧
    ∀ e ∈ ends, (String.ofList (integer e.1), e.2) ∈ f.labels.zip balances

/-! ### Calendar years -/

def Frequency.calendar : Frequency := .yearly (Fin.last 11)

theorem Frequency.covering_calendar {d : Date} (hd : d.HasMonth) :
    calendar.covering d.index = d.year * 12 + 11 := by
  obtain ⟨hm, hm'⟩ := hd
  simp only [calendar, covering, anchor, span, Date.index, Fin.val_last]
  omega

theorem Frequency.label_calendar {d : Date} (hd : d.HasMonth) (hy : 1000 ≤ d.year)
    (hy' : d.year ≤ 9999) :
    calendar.label (calendar.covering d.index) = String.ofList (integer d.year) := by
  have hyear : (d.year * 12 + 11) / 12 = d.year := by omega
  rw [covering_calendar hd]
  simp only [calendar, label, hyear, padded_four hy hy']

/-- No two calendar years have one label. -/
theorem Frequency.nodup_labels_calendar {months : List Date}
    (hplace : ∀ d ∈ months, d.HasMonth ∧ 1000 ≤ d.year ∧ d.year ≤ 9999) :
    ((blocksBy (fun d => calendar.covering d.index) months).map fun b => calendar.label b.1).Nodup := by
  have hnumbers : ((blocksBy (fun d => calendar.covering d.index) months).map Prod.fst).Nodup :=
    (ascend_blocksBy _ _).imp Int.ne_of_lt
  have hlabel : ∀ d ∈ months, calendar.label (calendar.covering d.index) =
      String.ofList (integer d.year) := fun d hd =>
    label_calendar (hplace d hd).1 (hplace d hd).2.1 (hplace d hd).2.2
  have hinj : ∀ p ∈ (blocksBy (fun d => calendar.covering d.index) months).map Prod.fst,
      ∀ q ∈ (blocksBy (fun d => calendar.covering d.index) months).map Prod.fst,
        calendar.label p = calendar.label q → p = q := by
    intro p hp q hq he
    rw [map_fst_blocksBy, Groups.mem_distinct] at hp hq
    obtain ⟨d, hd, rfl⟩ := List.mem_map.1 hp
    obtain ⟨d', hd', rfl⟩ := List.mem_map.1 hq
    rw [hlabel d hd, hlabel d' hd'] at he
    rw [covering_calendar (hplace d hd).1, covering_calendar (hplace d' hd').1,
      integer_inj (String.ofList_injective he)]
  have := hnumbers.map_on hinj
  rwa [List.map_map] at this

/-- The block of a calendar year ends with its December. -/
theorem Frequency.exists_block_of_december {months : List Date}
    (hmonths : months.Pairwise fun m n => m.index < n.index) {d : Date} (hd : d ∈ months)
    (hdecember : d.month = 12) :
    ∃ block, (calendar.covering d.index, block) ∈
        blocksBy (fun d => calendar.covering d.index) months ∧
      block ⊆ months ∧ block.getLast? = some d := by
  have hown : calendar.covering d.index = d.index := by
    rw [covering_calendar (by rw [Date.HasMonth, hdecember]; decide), Date.index, hdecember]
    rfl
  refine ⟨_, List.mem_map.2 ⟨_, (Groups.mem_distinct _ _).2 (List.mem_map_of_mem hd), rfl⟩,
    List.filter_sublist.subset, ?_⟩
  refine Date.getLast?_of_greatest (hmonths.filter _)
    (List.mem_filter.2 ⟨hd, decide_eq_true rfl⟩) fun m hm => ?_
  rw [← hown, ← of_decide_eq_true (List.mem_filter.1 hm).2]
  exact le_covering _ _

namespace Run
variable {α : Type} [Amount α] {run : Run α} {first last : Date}
  (hmonths : run.months = Date.keys first last)
include hmonths

theorem showsYearEnds_yearly
    (hplace : ∀ d ∈ Date.months first last, d.HasMonth ∧ 1000 ≤ d.year ∧ d.year ≤ 9999)
    (hthere : ∀ b ∈ run.balances.values, Amount.isMissing b = false) (missing : α) :
    ∃ monthly yearly, run.monthlyFrame = .ok monthly ∧
      monthly.atFrequency missing "Y" = .ok yearly ∧
      yearly.ShowsYearEnds (run.yearEnds first last) := by
  obtain ⟨monthly, hmonthly⟩ : ∃ monthly : Frame α, monthly =
      ⟨.monthly, (Date.months first last).map fun d => some d.index, run.monthlyColumns⟩ := ⟨_, rfl⟩
  have hframe : run.monthlyFrame = .ok monthly :=
    hmonthly ▸ monthlyFrame_eq_columns hmonths hplace
  have hyearly : monthly.atFrequency missing "Y" = .ok (monthly.aggregate missing .calendar) :=
    Frame.atFrequency_coarse (n := ("Y", .calendar)) missing (by decide +kernel) monthly
  have hperiods : monthly.periods = (Date.months first last).map fun d => some d.index := by
    rw [hmonthly]
  have hcolumn : monthly.column? "balance" =
      some (.amounts ((Date.months first last).map run.balanceOf)) := by
    rw [← values_balances_eq hmonths, hmonthly]
    rfl
  have hlabels := Frame.labels_aggregate hperiods missing .calendar
  refine ⟨monthly, _, hframe, hyearly, ?_, _,
    Frame.column?_aggregate hperiods missing _ (by decide) hcolumn, ?_, fun e he => ?_⟩
  · rw [hlabels]
    exact Frequency.nodup_labels_calendar hplace
  · rw [hlabels, List.length_map, List.length_map]
  · obtain ⟨d, hd, rfl⟩ := List.mem_map.1 he
    obtain ⟨hmem, hdecember⟩ := Date.mem_decembers.1 hd
    obtain ⟨hmonth, hyear, hyear'⟩ := hplace d hmem
    obtain ⟨block, hblock, hsub, hlast⟩ :=
      Frequency.exists_block_of_december Date.index_ascend_months hmem hdecember
    have hblockThere : ∀ x ∈ block.map run.balanceOf, Amount.isMissing x = false := by
      intro x hx
      rw [values_balances_eq hmonths] at hthere
      exact hthere x (List.map_subset _ hsub hx)
    rw [hlabels, List.zip_map']
    refine List.mem_map.2 ⟨_, hblock, Prod.ext (Frequency.label_calendar hmonth hyear hyear') ?_⟩
    dsimp only
    rw [Cells.lastAmount_of_there missing hblockThere, List.getLast?_map, hlast]
    rfl

end Run

/-! ## The overview -/

/-- What an overview tells of a run over a window, given the balance at its end and those at the ends
of years. -/
def simulated (years : Int) (first last : Date) (final : Float) (ends : List (Int × Float)) : Value :=
  .mapping [("years", .int years), ("startDate", .text first.key), ("endDate", .text last.key),
    ("finalBalance", .float final),
    ("balanceByYear", .list (ends.map fun e => .mapping [("year", .int e.1), ("balance", .float e.2)]))]

section Overview
variable (reg : Registry) {s : Scenario Float} (hevents : s.events ≠ []) {opening : Float}
  {years : Option Int} {today : Date}
include hevents

theorem Scenario.overview_of_error {f : Fault}
    (h : s.writtenRun reg (overviewWindow today (overviewYears years)).1
      (overviewWindow today (overviewYears years)).2 opening = .error f) :
    s.overview reg opening years true today = .error f := by
  have hsimulate : true = true ∧ ¬ s.events.isEmpty = true := by simpa using hevents
  rw [overview]
  dsimp only
  rw [if_pos hsimulate, h]
  rfl

theorem Scenario.overview_of_ok {run : Run Float}
    (h : s.writtenRun reg (overviewWindow today (overviewYears years)).1
      (overviewWindow today (overviewYears years)).2 opening = .ok run)
    (hlast : (overviewWindow today (overviewYears years)).2.isUnwritten = false) :
    s.overview reg opening years true today =
      .ok (.mapping (s.overviewHead opening ++ [("simulation", simulationValue run
        (overviewYears years) (overviewWindow today (overviewYears years)))])) := by
  have hsimulate : true = true ∧ ¬ s.events.isEmpty = true := by simpa using hevents
  rw [overview]
  dsimp only
  rw [if_pos hsimulate, h, hlast]
  rfl

end Overview

/-- Three reports agree on the balances at the ends of years. The overview goes from the month of today
to the same month as many years later as it is asked for, from one to thirty. It fails as its run
does, and otherwise it shows what the key figure of the run has: a balance for every December in its
window, the one that the run has for that month. With years of four figures, and nothing missing, it
is also the one that the yearly frame has for the year. -/
theorem overview_yearEnds (reg : Registry) (s : Scenario Float) (opening : Float)
    (years : Option Int) {today : Date} (hevents : s.events ≠ []) (hm : today.HasMonth)
    (hy : 0 ≤ today.year) :
    let n := min (max (years.getD 10) 1) 30
    let first : Date := ⟨today.year, today.month, 1⟩
    let last : Date := ⟨today.year + n, today.month, 1⟩
    (∀ f, s.writtenRun reg first last opening = .error f →
      s.overview reg opening years true today = .error f) ∧
    ((∃ run, s.writtenRun reg first last opening = .ok run) ↔
      reg.wire s.events = .ok () ∧ Date.reachesUnwritten first last = false) ∧
    ∀ run, s.writtenRun reg first last opening = .ok run → ∃ ends,
      run.yearEndBalances = .ok ends ∧
      s.overview reg opening years true today = .ok (.mapping (s.overviewHead opening ++
        [("simulation", simulated n first last run.finalBalance ends.entries)])) ∧
      List.Forall₂ (fun d e => e.1 = d.year ∧ run.balances.get? d.key = some e.2)
        (Date.decembers first last) ends.entries ∧
      run.balances.get? last.key = some run.finalBalance ∧
      (1000 ≤ first.year → last.year ≤ 9999 →
        (∀ b ∈ run.balances.values, Amount.isMissing b = false) → ∀ missing,
          ∃ monthly yearly, run.monthlyFrame = .ok monthly ∧
            monthly.atFrequency missing "Y" = .ok yearly ∧ yearly.ShowsYearEnds ends.entries) := by
  intro n first last
  have hf : first.HasMonth := hm
  have hl : last.HasMonth := hm
  have hle : first.index ≤ last.index := by
    simp only [first, last, n, Date.index]
    omega
  refine ⟨fun f => Scenario.overview_of_error reg hevents, ⟨fun h => ?_, fun h => ?_⟩,
    fun run h => ?_⟩
  · obtain ⟨run, hrun⟩ := h
    exact written_of_writtenRun hf hrun
  · exact ⟨_, writtenRun_of_nonneg opening h.1 hf hl hy h.2⟩
  · obtain ⟨-, hmonths, -⟩ := conserves_of_writtenRun hf hl h
    have hwritten := (written_of_writtenRun hf h).2
    have hmem : last ∈ Date.months first last :=
      Date.mem_months.2 ⟨hl, rfl, hle, Int.le_refl _⟩
    have hlast : last.isUnwritten = false :=
      Date.isUnwritten_of_mem_months hf hl hwritten hmem
    obtain ⟨ends, hends, hentries⟩ := Run.yearEndBalances_eq hmonths hf hl hy hwritten
    refine ⟨ends, hends, ?_, ?_, Run.get?_last hmonths hl hle, fun hyear hyear' hthere missing => ?_⟩
    · rw [Scenario.overview_of_ok reg hevents h hlast, hentries, ← Run.balanceByYear_eq hmonths hf hl]
      rfl
    · rw [hentries, Run.yearEnds, List.forall₂_map_right_iff]
      refine List.forall₂_same.2 fun d hd => ⟨rfl, ?_⟩
      exact Run.get?_of_mem_months hmonths (Date.mem_decembers.1 hd).1
    · rw [hentries]
      exact Run.showsYearEnds_yearly hmonths
        (Date.fourFigures_of_mem_months hf hl hyear hyear') hthere missing

/-- A salary that comes every month. -/
def wages : Scenario Float where
  name := "Wages"
  events := [
    { name := "Salary", type := "income", amount := 0.25, recurrence := "monthly" }]

theorem overview_yearEnds_wages :
    ∃ run ends, wages.writtenRun .full ⟨2024, 12, 1⟩ ⟨2025, 12, 1⟩ 100 = .ok run ∧
      run.yearEndBalances = .ok ends ∧
      wages.overview .full 100 (some 1) true ⟨2024, 12, 24⟩ = .ok (.mapping
        (wages.overviewHead 100 ++ [("simulation",
          simulated 1 ⟨2024, 12, 1⟩ ⟨2025, 12, 1⟩ run.finalBalance ends.entries)])) ∧
      List.Forall₂ (fun (d : Date) e => e.1 = d.year ∧ run.balances.get? d.key = some e.2)
        [⟨2024, 12, 1⟩, ⟨2025, 12, 1⟩] ends.entries ∧
      ∃ monthly yearly, run.monthlyFrame = .ok monthly ∧
        monthly.atFrequency 0 "Y" = .ok yearly ∧ yearly.ShowsYearEnds ends.entries := by
  have h := writtenRun_of_nonneg (r := .full) (s := wages) 100 rfl
    (show Date.HasMonth ⟨2024, 12, 1⟩ by decide) (show Date.HasMonth ⟨2025, 12, 1⟩ by decide)
    (by decide) (by decide +kernel)
  have hwindow : Date.decembers ⟨2024, 12, 1⟩ ⟨2025, 12, 1⟩ = [⟨2024, 12, 1⟩, ⟨2025, 12, 1⟩] := by
    decide +kernel
  have hall := overview_yearEnds .full wages 100 (some 1) (List.cons_ne_nil _ _)
    (show Date.HasMonth ⟨2024, 12, 24⟩ by decide) (by decide)
  obtain ⟨ends, hends, hoverview, hdecembers, -, hyearly⟩ := hall.2.2 _ h
  exact ⟨_, ends, h, hends, hoverview, hwindow ▸ hdecembers,
    hyearly (by decide) (by decide) (by decide +kernel) 0⟩

end Cashflow

import Cashflow.Proofs.Report.Frequencies

/-!
# Quarters within years

The quarters and the years that end in one month nest: a year covers the months of its quarters and
no others (`Frequency.yearly_quarterly`). So the blocks of quarters join into those of years
(`Frequency.joined_joined`), and the report by years may be taken from the one by quarters, in place
of the monthly one (`atFrequency_yearly_quarterly`). A window need not begin or end with a quarter.
-/

namespace Cashflow

namespace Frequency

/-- What the names of quarters and years have behind their letter: nothing for those that end in
December, and for each month the name of those that end in it. -/
def yearEnds : List (String × Fin 12) :=
  ("", Fin.last 11) :: (List.finRange 12).map fun i =>
    ("-" ++ ((monthNames[i.val]?).bind List.head?).getD "", i)

theorem quarterly_mem_coarse :
    ∀ n ∈ yearEnds, ("Q" ++ n.1, quarterly n.2) ∈ coarse := by
  decide +kernel

theorem yearly_mem_coarse :
    ∀ n ∈ yearEnds, ("Y" ++ n.1, yearly n.2) ∈ coarse := by
  decide +kernel

/-- The year of a month ends with the year of its quarter. -/
theorem yearly_quarterly (last : Fin 12) (i : Int) :
    (yearly last).covering ((quarterly last).covering i) = (yearly last).covering i := by
  simp only [covering, anchor, span]
  omega

/-- The blocks of nested periods join. -/
theorem joined_joined {g h : Frequency} (hnest : ∀ i, g.covering (h.covering i) = g.covering i)
    {months : List Date} (hmonths : months.Pairwise fun m n => m.index < n.index) :
    g.joined (h.joined (monthBlocks months)) = g.joined (monthBlocks months) := by
  have hascend : months.Pairwise fun m n => h.covering m.index ≤ h.covering n.index :=
    hmonths.imp fun hlt => h.covering_mono (Int.le_of_lt hlt)
  rw [joined_monthBlocks, joined_monthBlocks, joined, blocksBy_blocksBy g.covering hascend]
  simp only [hnest]

theorem ne_nil_of_mem_joined {g : Frequency} {blocks : List (Int × List Date)}
    (hne : ∀ b ∈ blocks, b.2 ≠ []) {b : Int × List Date} (hb : b ∈ g.joined blocks) : b.2 ≠ [] := by
  obtain ⟨c, hc, rfl⟩ := List.mem_map.1 hb
  obtain ⟨d, hd⟩ := List.exists_mem_of_ne_nil _ (ne_nil_of_mem_blocksBy hc)
  obtain ⟨m, hm⟩ := List.exists_mem_of_ne_nil _ (hne d (mem_of_mem_blocksBy hc hd).1)
  exact List.ne_nil_of_mem (List.mem_flatMap.2 ⟨d, hd, hm⟩)

end Frequency

/-- Aggregated to nested periods in turn, a frame by months is as if aggregated at once. -/
theorem Run.aggregate_aggregate (run : Run Rat) (missing : Rat) {g h : Frequency}
    (hnest : ∀ i, g.covering (h.covering i) = g.covering i) {months : List Date}
    (hmonths : months.Pairwise fun m n => m.index < n.index) :
    let monthly := run.blockFrame .monthly (monthBlocks months)
    (monthly.aggregate missing h).aggregate missing g = monthly.aggregate missing g := by
  have hne : ∀ b ∈ monthBlocks months, b.2 ≠ [] := fun _ => ne_nil_of_mem_monthBlocks
  intro monthly
  rw [run.aggregate_blockFrame h missing _ hne,
    run.aggregate_blockFrame g missing _ fun _ => Frequency.ne_nil_of_mem_joined hne,
    run.aggregate_blockFrame g missing _ hne, Frequency.joined_joined hnest hmonths]

/-- The yearly report of a run may be taken from the quarterly one that ends in the same month: both
ways the frames are the same, with their periods, flows and balances. -/
theorem atFrequency_yearly_quarterly (r : Registry) (s : Scenario Rat) {first last : Date}
    (opening : Rat) {run : Run Rat} (hf : first.HasMonth) (hl : last.HasMonth)
    (hyear : 1000 ≤ first.year) (hyear' : last.year ≤ 9999)
    (h : s.writtenRun r first last opening = .ok run) :
    ∃ monthly, run.monthlyFrame = .ok monthly ∧
      ∀ missing : Rat, ∀ n ∈ Frequency.yearEnds, ∃ quarterly yearly : Frame Rat,
        quarterly.frequency = .quarterly n.2 ∧ yearly.frequency = .yearly n.2 ∧
        monthly.atFrequency missing ("Q" ++ n.1) = .ok quarterly ∧
        quarterly.atFrequency missing ("Y" ++ n.1) = .ok yearly ∧
        monthly.atFrequency missing ("Y" ++ n.1) = .ok yearly := by
  obtain ⟨-, hmonths, -⟩ := conserves_of_writtenRun hf hl h
  have hplace := Date.fourFigures_of_mem_months hf hl hyear hyear'
  refine ⟨_, Run.monthlyFrame_eq hmonths hplace, fun missing n hn => ?_⟩
  have hquarterly := Frequency.quarterly_mem_coarse n hn
  have hyearly := Frequency.yearly_mem_coarse n hn
  refine ⟨_, _, rfl, rfl, Frame.atFrequency_coarse missing hquarterly _,
    Frame.atFrequency_coarse missing hyearly _, ?_⟩
  rw [Frame.atFrequency_coarse missing hyearly,
    run.aggregate_aggregate missing (Frequency.yearly_quarterly n.2) Date.index_ascend_months]

theorem atFrequency_yearly_quarterly_household :
    ∃ run monthly, household.writtenRun .full ⟨2025, 1, 15⟩ ⟨2026, 4, 2⟩ 0 = .ok run ∧
      run.monthlyFrame = .ok monthly ∧ ∃ quarterly yearly : Frame Rat,
        quarterly.frequency = .quarterly 0 ∧ yearly.frequency = .yearly 0 ∧
        monthly.atFrequency 0 "Q-JAN" = .ok quarterly ∧
        quarterly.atFrequency 0 "Y-JAN" = .ok yearly ∧
        monthly.atFrequency 0 "Y-JAN" = .ok yearly := by
  have h := writtenRun_of_nonneg (r := .full) (s := household) 0 rfl
    (show Date.HasMonth ⟨2025, 1, 15⟩ by decide) (show Date.HasMonth ⟨2026, 4, 2⟩ by decide)
    (by decide) (by decide +kernel)
  obtain ⟨monthly, hmonthly, hframes⟩ := atFrequency_yearly_quarterly .full household 0 (by decide)
    (by decide) (by decide) (by decide) h
  exact ⟨_, monthly, h, hmonthly, hframes 0 ("-JAN", 0) (by decide +kernel)⟩

end Cashflow

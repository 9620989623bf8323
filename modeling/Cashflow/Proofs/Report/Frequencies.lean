import Cashflow.Proofs.Report.Rows

/-!
# Ledgers at coarse frequencies

Aggregated to quarters or years, whichever month these end in, the months of a run fall into
consecutive blocks, one for each period (`Frequency.Spans`, `Frequency.Cuts`). The flows of the
blocks have the totals of the monthly ones (`total?_blockFrame`), and carry the balance from the
opening to the final one (`Frame.Carries`, `carries_blockFrame`).
-/

namespace Cashflow

/-! ## Names of quarters and years -/

/-- The names of quarters and years: those that end in December, and for each month those that end
in it. -/
def Frequency.coarse : List (String × Frequency) :=
  [("Q", .quarterly (Fin.last 11)), ("Y", .yearly (Fin.last 11))] ++ (List.finRange 12).flatMap fun i =>
    let month := ((monthNames[i.val]?).bind List.head?).getD ""
    [("Q-" ++ month, .quarterly i), ("Y-" ++ month, .yearly i)]

theorem Frequency.parse_coarse :
    ∀ n ∈ coarse, isMonthlyName n.1 = false ∧ parse n.1 = .ok n.2 := by
  decide +kernel

theorem Frame.atFrequency_coarse {α : Type} [Amount α] (missing : α) {n : String × Frequency}
    (hn : n ∈ Frequency.coarse) (f : Frame α) :
    f.atFrequency missing n.1 = .ok (f.aggregate missing n.2) := by
  obtain ⟨hmonthly, hparse⟩ := Frequency.parse_coarse n hn
  rw [atFrequency, hmonthly, if_neg Bool.false_ne_true, hparse]
  rfl

/-! ## Consecutive blocks -/

/-- The place `i` lies in the period that ends with the place `last`: periods follow one another
without gaps, and one of them ends with the anchor. -/
structure Frequency.Spans (g : Frequency) (last i : Int) : Prop where
  ends : g.span ∣ last - g.anchor
  after : last - g.span < i
  through : i ≤ last

theorem Frequency.spans_covering (g : Frequency) (i : Int) : g.Spans (g.covering i) i where
  ends := by
    have h : g.covering i - g.anchor = (g.anchor - i) % g.span - (g.anchor - i) := by
      rw [covering]
      omega
    rw [h]
    exact Int.dvd_emod_sub_self
  after := by
    have := g.covering_lt i
    omega
  through := g.le_covering i

/-- Blocks that cut months in turn, one for each period with any of them, in chronological order. -/
structure Frequency.Cuts (g : Frequency) (months : List Date) (blocks : List (Int × List Date)) :
    Prop where
  ascend : (blocks.map Prod.fst).Pairwise (· < ·)
  nonempty : ∀ b ∈ blocks, b.2 ≠ []
  spans : ∀ b ∈ blocks, ∀ m ∈ b.2, g.Spans b.1 m.index
  flatten : blocks.flatMap Prod.snd = months

theorem Frequency.Cuts.isPrefix {g : Frequency} {months : List Date}
    {blocks : List (Int × List Date)} (h : g.Cuts months blocks) (n : Nat) :
    (blocks.take n).flatMap Prod.snd <+: months := by
  refine ⟨(blocks.drop n).flatMap Prod.snd, ?_⟩
  rw [← List.flatMap_append, List.take_append_drop, h.flatten]

theorem Frequency.covering_mono (g : Frequency) {i j : Int} (h : i ≤ j) :
    g.covering i ≤ g.covering j := by
  cases g with
  | monthly => simpa using h
  | quarterly last =>
    simp only [Frequency.covering, anchor, span]
    omega
  | yearly last =>
    simp only [Frequency.covering, anchor, span]
    omega

theorem Frequency.cuts_blocksBy (g : Frequency) {months : List Date}
    (h : months.Pairwise fun m n => m.index < n.index) :
    g.Cuts months (blocksBy (fun m => g.covering m.index) months) where
  ascend := ascend_blocksBy _ _
  nonempty _ hb := ne_nil_of_mem_blocksBy hb
  spans _ hb m hm := (mem_of_mem_blocksBy hb hm).2 ▸ g.spans_covering m.index
  flatten := flatten_blocksBy (h.imp fun hlt => g.covering_mono (Int.le_of_lt hlt))

/-! ## Totals -/

/-- The sum of the cells of a column. -/
def Cells.total : Cells Rat → Rat
  | .amounts xs => Amount.total xs
  | .counts ns => ns.sum
  | .mixed cells => Amount.total ((cells.filterMap id).map Count.toAmount)

def Frame.total? (f : Frame Rat) (name : String) : Option Rat := (f.column? name).map Cells.total

/-- How months are cut into blocks does not matter to the totals of flows. -/
theorem Run.total?_blockFrame (run : Run Rat) (g h : Frequency)
    {blocks blocks' : List (Int × List Date)}
    (hsame : blocks.flatMap Prod.snd = blocks'.flatMap Prod.snd) :
    ∀ name ∈ flowColumns,
      (run.blockFrame g blocks).total? name = (run.blockFrame h blocks').total? name := by
  have hflows : ∀ flow : Entry Rat → Rat,
      Amount.total (run.flows flow blocks) = Amount.total (run.flows flow blocks') := by
    intro flow
    simp only [flows]
    rw [Amount.total_flatMap, Amount.total_flatMap, hsame]
  have hcounts : (run.counts blocks).sum = (run.counts blocks').sum := by
    simp only [counts]
    rw [sum_flatMap, sum_flatMap, hsame]
  intro name hname
  simp only [flowColumns, List.mem_cons, List.not_mem_nil, or_false] at hname
  rcases hname with rfl | rfl | rfl | rfl
  · exact congrArg some (hflows Entry.inflows)
  · exact congrArg some (hflows Entry.outflows)
  · exact congrArg some (hflows Entry.amount)
  · exact congrArg some (congrArg Int.cast hcounts)

/-! ## Balances -/

/-- Each balance is the one before it, or the opening, plus the flow of its row. -/
def Amount.Accumulates (opening : Rat) (flows balances : List Rat) : Prop :=
  balances.length = flows.length ∧ ∀ (i : Nat) (a : Rat), flows[i]? = some a →
    balances[i]? = some ((balances.take i).getLast?.getD opening + a)

/-- Row by row, the net flows of a frame carry the opening balance to the final one. -/
def Frame.Carries (f : Frame Rat) (opening final : Rat) : Prop :=
  ∃ flows balances, f.column? "net_cashflow" = some (.amounts flows) ∧
    f.column? "balance" = some (.amounts balances) ∧
    Amount.Accumulates opening flows balances ∧ balances.getLast?.getD opening = final

section Balances
variable {run : Run Rat} {months : List Date} (hmonths : run.months = months.map Date.key)
include hmonths

theorem Run.closing_take (n : Nat) : run.closing (months.take n) = run.balanceBefore n := by
  have htake : (run.closings (monthBlocks months)).take n =
      run.closings (monthBlocks (months.take n)) := by
    rw [closings, closings, monthBlocks, monthBlocks, List.map_take, List.map_take]
  rw [balanceBefore, ← closings_monthBlocks hmonths, htake,
    ← run.closing_flatMap fun _ => ne_nil_of_mem_monthBlocks, flatMap_monthBlocks]

theorem Run.closing_months : run.closing months = run.finalBalance := by
  rw [finalBalance, ← closings_monthBlocks hmonths,
    ← run.closing_flatMap fun _ => ne_nil_of_mem_monthBlocks, flatMap_monthBlocks]

/-- The balance after the first months of a run is the opening and their net flows. -/
theorem Run.closing_of_isPrefix (hrun : run.Conserves) {early : List Date} (h : early <+: months) :
    run.closing early =
      run.opening + Amount.total (early.map fun m => (run.entry m.key).amount) := by
  have hcashflow : run.cashflow.values = months.map fun m => run.entry m.key := by
    have hkeys : run.cashflow.keys = months.map Date.key := hrun.months.trans hmonths
    rw [run.cashflow.values_eq_map_get? {}, hkeys, List.map_map]
    rfl
  rw [List.prefix_iff_eq_take.1 h, closing_take hmonths, hrun.balanceBefore_eq, hcashflow,
    ← List.map_take, List.map_map]
  rfl

/-- A block of months moves the balance by its net flow. -/
theorem Run.closing_block (hrun : run.Conserves) {early block : List Date} (hne : block ≠ [])
    (h : early ++ block <+: months) :
    run.closing block =
      run.closing early + Amount.total (block.map fun m => (run.entry m.key).amount) := by
  have hearly : early <+: months := (List.prefix_append early block).trans h
  rw [← run.closing_append early hne, closing_of_isPrefix hmonths hrun h,
    closing_of_isPrefix hmonths hrun hearly, List.map_append, Amount.total_append]
  exact (Rat.add_assoc _ _ _).symm

/-- Blocks that cut the months of a run carry its balance from the opening to the end. -/
theorem Run.carries_blockFrame (hrun : run.Conserves) {g : Frequency}
    {blocks : List (Int × List Date)} (hcuts : g.Cuts months blocks) :
    (run.blockFrame g blocks).Carries run.opening run.finalBalance := by
  refine ⟨run.flows Entry.amount blocks, run.closings blocks, rfl, rfl, ⟨?_, ?_⟩, ?_⟩
  · simp only [flows, closings, List.length_map]
  · intro i a ha
    obtain ⟨b, hb, rfl⟩ : ∃ b, blocks[i]? = some b ∧
        Amount.total (b.2.map fun m => (run.entry m.key).amount) = a := by
      simpa only [flows, List.getElem?_map, Option.map_eq_some_iff] using ha
    have hne : b.2 ≠ [] := hcuts.nonempty b (List.mem_of_getElem? hb)
    have hbefore : ((run.closings blocks).take i).getLast?.getD run.opening =
        run.closing ((blocks.take i).flatMap Prod.snd) := by
      rw [run.closing_flatMap fun c hc => hcuts.nonempty c (List.mem_of_mem_take hc), closings,
        closings, List.map_take]
    have hnext : (blocks.take i).flatMap Prod.snd ++ b.2 <+: months := by
      have := hcuts.isPrefix (i + 1)
      rwa [List.take_add_one, hb, Option.toList_some, List.flatMap_append,
        List.flatMap_singleton] at this
    rw [hbefore, ← closing_block hmonths hrun hne hnext, closings, List.getElem?_map, hb,
      Option.map_some]
  · rw [← run.closing_flatMap hcuts.nonempty, hcuts.flatten, closing_months hmonths]

end Balances

/-- Reported by quarters or years, a run keeps its ledger: the rows cut its months into consecutive
blocks, flows have their monthly totals, and carry the balance from the opening to the final one. -/
theorem atFrequency_conserves (r : Registry) (s : Scenario Rat) {first last : Date} (opening : Rat)
    {run : Run Rat} (hf : first.HasMonth) (hl : last.HasMonth) (hyear : 1000 ≤ first.year)
    (hyear' : last.year ≤ 9999) (h : s.writtenRun r first last opening = .ok run) :
    let monthly := run.blockFrame .monthly (monthBlocks (Date.months first last))
    run.monthlyFrame = .ok monthly ∧
      ∀ missing : Rat, ∀ n ∈ Frequency.coarse, ∃ blocks,
        monthly.atFrequency missing n.1 = .ok (run.blockFrame n.2 blocks) ∧
        n.2.Cuts (Date.months first last) blocks ∧
        (∀ name ∈ flowColumns,
          (run.blockFrame n.2 blocks).total? name = monthly.total? name) ∧
        (run.blockFrame n.2 blocks).Carries opening run.finalBalance := by
  obtain ⟨rfl, hmonths, hrun⟩ := conserves_of_writtenRun hf hl h
  have hplace : ∀ d ∈ Date.months first last, d.HasMonth ∧ 1000 ≤ d.year ∧ d.year ≤ 9999 := by
    intro d hd
    have hfrom := Date.year_le_of_mem_months hf hd
    have hto := Date.le_year_of_mem_months hl hd
    exact ⟨(Date.mem_months.1 hd).1, by omega, by omega⟩
  refine ⟨Run.monthlyFrame_eq hmonths hplace, fun missing n hn => ?_⟩
  have hcuts : n.2.Cuts (Date.months first last) _ := n.2.cuts_blocksBy Date.index_ascend_months
  refine ⟨_, ?_, hcuts, ?_, Run.carries_blockFrame hmonths hrun hcuts⟩
  · rw [Frame.atFrequency_coarse missing hn,
      run.aggregate_blockFrame _ missing _ fun _ => ne_nil_of_mem_monthBlocks,
      Frequency.joined_monthBlocks]
  · apply run.total?_blockFrame
    rw [hcuts.flatten, flatMap_monthBlocks]

theorem atFrequency_conserves_household :
    ∃ run, household.writtenRun .full ⟨2025, 1, 15⟩ ⟨2025, 3, 2⟩ 0 = .ok run ∧
      run.finalBalance = 460 ∧ ∃ monthly, run.monthlyFrame = .ok monthly ∧ ∃ blocks,
        monthly.atFrequency 0 "Q-JAN" = .ok (run.blockFrame (.quarterly 0) blocks) ∧
        (Frequency.quarterly 0).Cuts (Date.months ⟨2025, 1, 15⟩ ⟨2025, 3, 2⟩) blocks ∧
        (run.blockFrame (.quarterly 0) blocks).Carries 0 run.finalBalance := by
  have h := writtenRun_household
  have hall := atFrequency_conserves .full household 0 (by decide) (by decide) (by decide)
    (by decide) h
  obtain ⟨blocks, hframe, hcuts, -, hcarries⟩ := hall.2 0 ("Q-JAN", .quarterly 0)
    (by decide +kernel)
  exact ⟨_, h, by decide +kernel, _, hall.1, blocks, hframe, hcuts, hcarries⟩

end Cashflow

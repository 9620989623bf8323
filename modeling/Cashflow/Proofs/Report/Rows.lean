import Cashflow.Proofs.Report.Blocks
import Cashflow.Proofs.Report.KeyPlace
import Cashflow.Proofs.Report.Totals

/-!
# Frames by blocks of months

The frame of a run with a row for each of some blocks of months sums the flows of a block and keeps
its last balance (`Run.blockFrame`). The monthly frame is that of the single months
(`monthlyFrame_eq`). Aggregating joins the blocks of a period and leaves such a frame
(`aggregate_blockFrame`): sums of sums are sums, and the last of the last is the last.
-/

namespace Cashflow

section Rows
variable {α : Type} [Amount α]

/-- The balance after months of a run; before all of them it is the opening. -/
def Run.closing (run : Run α) (months : List Date) : α :=
  (months.getLast?.bind fun m => run.balances.get? m.key).getD run.opening

/-- The sums of a flow over blocks of months. -/
def Run.flows (run : Run α) (flow : Entry α → α) (blocks : List (Int × List Date)) : List α :=
  blocks.map fun b => Amount.total (b.2.map fun m => flow (run.entry m.key))

/-- The numbers of events in blocks of months. -/
def Run.counts (run : Run α) (blocks : List (Int × List Date)) : List Int :=
  blocks.map fun b => (b.2.map fun m => (run.entry m.key).eventCount).sum

/-- The balances after blocks of months. -/
def Run.closings (run : Run α) (blocks : List (Int × List Date)) : List α :=
  blocks.map fun b => run.closing b.2

/-- The frame with a row for each block of months, under the number of the block: flows are summed
over the block, the balance is the one after it. -/
def Run.blockFrame (run : Run α) (g : Frequency) (blocks : List (Int × List Date)) : Frame α where
  frequency := g
  periods := blocks.map fun b => some b.1
  columns :=
    [⟨"inflows", .amounts (run.flows Entry.inflows blocks)⟩,
      ⟨"outflows", .amounts (run.flows Entry.outflows blocks)⟩,
      ⟨"net_cashflow", .amounts (run.flows Entry.amount blocks)⟩,
      ⟨"balance", .amounts (run.closings blocks)⟩, ⟨countColumn, .counts (run.counts blocks)⟩]

end Rows

/-- Each month a block of its own, under its place. -/
def monthBlocks (months : List Date) : List (Int × List Date) := months.map fun m => (m.index, [m])

/-- The blocks whose numbers lie in one period become one, under the number of the period. -/
def Frequency.joined (g : Frequency) (blocks : List (Int × List Date)) : List (Int × List Date) :=
  (blocksBy (fun b => g.covering b.1) blocks).map fun b => (b.1, b.2.flatMap Prod.snd)

/-! ## Sums of sums, last of last -/

theorem Amount.total_flatMap {β γ : Type} (f : β → List γ) (g : γ → Rat) (l : List β) :
    total (l.map fun x => total ((f x).map g)) = total ((l.flatMap f).map g) := by
  induction l using List.reverseRecOn with
  | nil => rfl
  | append_singleton l x ih =>
    rw [List.map_append, List.map_singleton, total_concat, ih, List.flatMap_append,
      List.flatMap_singleton, List.map_append, total_append]

theorem sum_flatMap {β γ : Type} (f : β → List γ) (g : γ → Int) (l : List β) :
    (l.map fun x => ((f x).map g).sum).sum = ((l.flatMap f).map g).sum := by
  induction l with
  | nil => rfl
  | cons x l ih =>
    rw [List.map_cons, List.sum_cons, ih, List.flatMap_cons, List.map_append, List.sum_append]

section Closing
variable {α : Type} [Amount α]

theorem Run.closing_append (run : Run α) (before : List Date) {months : List Date}
    (h : months ≠ []) : run.closing (before ++ months) = run.closing months := by
  rw [closing, List.getLast?_append_of_ne_nil _ h]
  rfl

/-- After blocks, none of which is empty, the balance is the one after the last of them. -/
theorem Run.closing_flatMap (run : Run α) {blocks : List (Int × List Date)}
    (h : ∀ b ∈ blocks, b.2 ≠ []) :
    run.closing (blocks.flatMap Prod.snd) = (run.closings blocks).getLast?.getD run.opening := by
  rcases List.eq_nil_or_concat blocks with rfl | ⟨before, b, rfl⟩
  · rfl
  · have hb : b.2 ≠ [] := h b (by simp)
    rw [List.concat_eq_append, List.flatMap_append, List.flatMap_singleton,
      run.closing_append _ hb, closings, List.map_append, List.map_singleton,
      List.getLast?_concat, Option.getD_some]

end Closing

/-! ## The monthly frame -/

theorem flatMap_monthBlocks (months : List Date) :
    (monthBlocks months).flatMap Prod.snd = months := by
  rw [monthBlocks, List.flatMap_map]
  exact List.flatMap_singleton' months

theorem ne_nil_of_mem_monthBlocks {months : List Date} {b : Int × List Date}
    (h : b ∈ monthBlocks months) : b.2 ≠ [] := by
  obtain ⟨m, -, rfl⟩ := List.mem_map.1 h
  exact List.cons_ne_nil m []

/-- Reports can place the months of a window whose years have four figures. -/
theorem Date.fourFigures_of_mem_months {first last : Date} (hf : first.HasMonth)
    (hl : last.HasMonth) (hyear : 1000 ≤ first.year) (hyear' : last.year ≤ 9999) :
    ∀ d ∈ Date.months first last, d.HasMonth ∧ 1000 ≤ d.year ∧ d.year ≤ 9999 := by
  intro d hd
  have hfrom := Date.year_le_of_mem_months hf hd
  have hto := Date.le_year_of_mem_months hl hd
  exact ⟨(Date.mem_months.1 hd).1, by omega, by omega⟩

theorem Run.monthlyFrame_eq_columns {α : Type} [Amount α] {run : Run α} {months : List Date}
    (hmonths : run.months = months.map Date.key)
    (hplace : ∀ d ∈ months, d.HasMonth ∧ 1000 ≤ d.year ∧ d.year ≤ 9999) :
    run.monthlyFrame = .ok ⟨.monthly, months.map fun d => some d.index, run.monthlyColumns⟩ := by
  rw [monthlyFrame, hmonths, Period.places_keys hplace]
  rfl

section Monthly
variable {run : Run Rat} {months : List Date} (hmonths : run.months = months.map Date.key)
include hmonths

theorem Run.flows_monthBlocks (flow : Entry Rat → Rat) :
    run.flows flow (monthBlocks months) = (run.months.map run.entry).map flow := by
  rw [flows, monthBlocks, hmonths, List.map_map, List.map_map, List.map_map]
  refine List.map_congr_left fun m _ => ?_
  exact Rat.zero_add _

theorem Run.counts_monthBlocks :
    run.counts (monthBlocks months) = (run.months.map run.entry).map Entry.eventCount := by
  rw [counts, monthBlocks, hmonths, List.map_map, List.map_map, List.map_map]
  refine List.map_congr_left fun m _ => ?_
  exact Int.add_zero _

theorem Run.closings_monthBlocks : run.closings (monthBlocks months) = run.balances.values := by
  have hkeys : run.balances.keys = months.map Date.key := hmonths
  rw [run.balances.values_eq_map_get? run.opening, hkeys, closings, monthBlocks, List.map_map,
    List.map_map]
  rfl

/-- The monthly frame has a row for each month, if reports can place them all. -/
theorem Run.monthlyFrame_eq (hplace : ∀ d ∈ months, d.HasMonth ∧ 1000 ≤ d.year ∧ d.year ≤ 9999) :
    run.monthlyFrame = .ok (run.blockFrame .monthly (monthBlocks months)) := by
  have hperiods : (monthBlocks months).map (fun b => some b.1) = months.map fun m => some m.index :=
    List.map_map
  rw [monthlyFrame_eq_columns hmonths hplace, blockFrame, hperiods]
  simp only [flows_monthBlocks hmonths, counts_monthBlocks hmonths, closings_monthBlocks hmonths]
  rfl

end Monthly

/-! ## Aggregated frames -/

section Aggregated
variable {α β : Type} [Amount α] {f : Frame α} {l : List β} {place : β → Int}
  (hplaces : f.periods = l.map fun x => some (place x)) (missing : α) (g : Frequency)
include hplaces

omit [Amount α] in
theorem Frame.aggregate_rows :
    (f.periods.map fun p => p.map g.covering) = l.map fun x => some (g.covering (place x)) := by
  rw [hplaces]
  exact List.map_map

omit [Amount α] in
theorem Frame.aggregate_periods :
    (f.periods.map fun p => p.map g.covering).filterMap id = l.map fun x => g.covering (place x) := by
  rw [aggregate_rows hplaces, List.filterMap_map]
  exact congrFun List.filterMap_eq_map' l

/-- An aggregated frame has a row for each block of the rows of one period. -/
theorem Frame.labels_aggregate :
    (f.aggregate missing g).labels =
      (blocksBy (fun x => g.covering (place x)) l).map fun b => g.label b.1 := by
  have hperiods : (f.aggregate missing g).periods =
      (Groups.distinct (l.map fun x => g.covering (place x))).map some := by
    rw [← aggregate_periods hplaces]
    rfl
  rw [labels, hperiods, ← map_fst_blocksBy, List.map_map, List.map_map]
  rfl

/-- A column that is no flow keeps the last amount of each block. -/
theorem Frame.column?_aggregate {name : String} (hstock : isFlow name = false) {cell : β → α}
    (hcolumn : f.column? name = some (.amounts (l.map cell))) :
    (f.aggregate missing g).column? name =
      some (.amounts ((blocksBy (fun x => g.covering (place x)) l).map fun b =>
        Cells.lastAmount missing (b.2.map cell))) := by
  obtain ⟨c, hc, hcells⟩ := Option.map_eq_some_iff.1 hcolumn
  have hname : c.name = name := by simpa using List.find?_some hc
  have hgather : c.cells.gather missing (isFlow c.name) (l.map fun x => some (g.covering (place x)))
      (Groups.distinct (l.map fun x => g.covering (place x))) =
        .amounts ((blocksBy (fun x => g.covering (place x)) l).map fun b =>
          Cells.lastAmount missing (b.2.map cell)) := by
    rw [hcells, hname, hstock, Cells.gather, Cells.combined_blocksBy]
    rfl
  rw [← hgather, ← aggregate_periods hplaces, ← aggregate_rows hplaces, column?, aggregate,
    List.find?_map]
  exact congrArg (Option.map Column.cells ∘ Option.map _) hc

end Aggregated

namespace Cells
variable {β : Type}

theorem gather_flow (missing : Rat) (number : β → Int) (cell : β → Rat) (l : List β) :
    (amounts (l.map cell)).gather missing true (l.map fun x => some (number x))
        (Groups.distinct (l.map number)) =
      .amounts ((blocksBy number l).map fun b => Amount.total (b.2.map cell)) := by
  rw [gather, combined_blocksBy]
  simp only [combine_flow]

theorem gather_last (missing : Rat) (number : β → Int) (cell : β → Rat) (l : List β) :
    (amounts (l.map cell)).gather missing false (l.map fun x => some (number x))
        (Groups.distinct (l.map number)) =
      .amounts ((blocksBy number l).map fun b => (b.2.map cell).getLast?.getD missing) := by
  rw [gather, combined_blocksBy]
  simp only [combine_last]

theorem gather_counts (missing : Rat) (number : β → Int) (cell : β → Int) (l : List β) :
    (counts (l.map cell)).gather missing true (l.map fun x => some (number x))
        (Groups.distinct (l.map number)) =
      .counts ((blocksBy number l).map fun b => (b.2.map cell).sum) := by
  rw [gather, combined_blocksBy]
  simp only [combineCounts, if_true, List.sum_eq_foldl]

end Cells

section Joined
variable (run : Run Rat) (g : Frequency) (blocks : List (Int × List Date))

theorem Run.flows_joined (flow : Entry Rat → Rat) :
    run.flows flow (g.joined blocks) =
      (blocksBy (fun b => g.covering b.1) blocks).map fun b => Amount.total (b.2.map fun c =>
        Amount.total (c.2.map fun m => flow (run.entry m.key))) := by
  simp only [flows, Frequency.joined, List.map_map, Amount.total_flatMap]
  rfl

theorem Run.counts_joined :
    run.counts (g.joined blocks) =
      (blocksBy (fun b => g.covering b.1) blocks).map fun b => (b.2.map fun c =>
        (c.2.map fun m => (run.entry m.key).eventCount).sum).sum := by
  simp only [counts, Frequency.joined, List.map_map, sum_flatMap]
  rfl

/-- A period has blocks, and so a last balance. -/
theorem Run.closings_joined (missing : Rat) (hne : ∀ b ∈ blocks, b.2 ≠ []) :
    run.closings (g.joined blocks) =
      (blocksBy (fun b => g.covering b.1) blocks).map fun b =>
        (b.2.map fun c => run.closing c.2).getLast?.getD missing := by
  rw [closings, Frequency.joined, List.map_map]
  refine List.map_congr_left fun b hb => ?_
  have hlast : (b.2.map fun c => run.closing c.2) ≠ [] := by
    simpa using ne_nil_of_mem_blocksBy hb
  show run.closing (b.2.flatMap Prod.snd) = _
  rw [run.closing_flatMap fun c hc => hne c (mem_of_mem_blocksBy hb hc).1, closings,
    List.getLast?_eq_some_getLast hlast, Option.getD_some, Option.getD_some]

theorem Frequency.map_fst_joined :
    (g.joined blocks).map (fun b => some b.1) =
      (Groups.distinct (blocks.map fun b => g.covering b.1)).map some := by
  rw [← map_fst_blocksBy, joined, List.map_map, List.map_map]
  rfl

/-- Single months are joined into the blocks of their periods. -/
theorem Frequency.joined_monthBlocks (months : List Date) :
    g.joined (monthBlocks months) = blocksBy (fun m => g.covering m.index) months := by
  rw [joined, monthBlocks, blocksBy_map, List.map_map]
  refine (List.map_congr_left fun b _ => ?_).trans (List.map_id _)
  show (b.1, (monthBlocks b.2).flatMap Prod.snd) = b
  rw [flatMap_monthBlocks]

/-- Aggregating a frame by blocks joins the blocks of a period. -/
theorem Run.aggregate_blockFrame (missing : Rat) (h : Frequency) {blocks : List (Int × List Date)}
    (hne : ∀ b ∈ blocks, b.2 ≠ []) :
    (run.blockFrame h blocks).aggregate missing g = run.blockFrame g (g.joined blocks) := by
  have hflow : ∀ name ∈ flowColumns, isFlow name = true := by decide
  have hstock : isFlow "balance" = false := by decide
  unfold Frame.aggregate
  dsimp only
  rw [Frame.aggregate_periods rfl, Frame.aggregate_rows rfl, blockFrame, blockFrame,
    g.map_fst_joined]
  simp only [List.map_cons, List.map_nil, hstock, hflow "inflows" (by decide),
    hflow "outflows" (by decide), hflow "net_cashflow" (by decide), hflow countColumn (by decide),
    flows_joined, counts_joined, run.closings_joined g blocks missing hne]
  simp only [flows, counts, closings, Cells.gather_flow, Cells.gather_last, Cells.gather_counts]

end Joined

end Cashflow

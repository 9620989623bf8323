import Mathlib.Data.List.Sort
import Cashflow.Report.Frame

/-!
# Blocks of rows

Rows are gathered by number into blocks, the numbers ascending (`blocksBy`). No block is empty, and
where the numbers of the rows never descend, the blocks are the rows in turn (`flatten_blocksBy`), and
gathered once more they are the rows gathered at once (`blocksBy_blocksBy`). A gathered column has a
cell for each block, from the cells in it (`combined_blocksBy`).
-/

namespace Cashflow
variable {β : Type}

/-- The rows of every number that occurs, the numbers ascending. -/
def blocksBy (number : β → Int) (l : List β) : List (Int × List β) :=
  (Groups.distinct (l.map number)).map fun p => (p, l.filter fun x => number x = p)

section Blocks
variable {number : β → Int} {l : List β}

theorem map_fst_blocksBy (number : β → Int) (l : List β) :
    (blocksBy number l).map Prod.fst = Groups.distinct (l.map number) := by
  rw [blocksBy, List.map_map]
  exact List.map_id _

theorem ascend_blocksBy (number : β → Int) (l : List β) :
    ((blocksBy number l).map Prod.fst).Pairwise (· < ·) := by
  rw [map_fst_blocksBy]
  exact Groups.distinct_ascends _

theorem ne_nil_of_mem_blocksBy {b : Int × List β} (h : b ∈ blocksBy number l) : b.2 ≠ [] := by
  obtain ⟨p, hp, rfl⟩ := List.mem_map.1 h
  obtain ⟨x, hx, hxp⟩ := List.mem_map.1 ((Groups.mem_distinct _ p).1 hp)
  exact List.ne_nil_of_mem (List.mem_filter.2 ⟨hx, decide_eq_true hxp⟩)

theorem mem_of_mem_blocksBy {b : Int × List β} (h : b ∈ blocksBy number l) {x : β} (hx : x ∈ b.2) :
    x ∈ l ∧ number x = b.1 := by
  obtain ⟨p, -, rfl⟩ := List.mem_map.1 h
  obtain ⟨hx, hp⟩ := List.mem_filter.1 hx
  exact ⟨hx, of_decide_eq_true hp⟩

/-- Rows whose numbers never descend begin with those of the least number. -/
theorem filter_append_filter_of_ascend {p : Int} (hp : ∀ x ∈ l, p ≤ number x)
    (hl : l.Pairwise fun x y => number x ≤ number y) :
    (l.filter fun x => number x = p) ++ (l.filter fun x => number x ≠ p) = l := by
  induction l with
  | nil => rfl
  | cons x l ih =>
    obtain ⟨hx, hp'⟩ := List.forall_mem_cons.1 hp
    obtain ⟨hlater, hl'⟩ := List.pairwise_cons.1 hl
    by_cases he : number x = p
    · rw [List.filter_cons_of_pos (by simpa using he), List.filter_cons_of_neg (by simpa using he),
        List.cons_append, ih hp' hl']
    · have hnone : (l.filter fun y => number y = p) = [] :=
        List.filter_eq_nil_iff.2 fun y hy => by
          have := hlater y hy
          simp only [decide_eq_true_eq]
          omega
      have hall : (l.filter fun y => number y ≠ p) = l :=
        List.filter_eq_self.2 fun y hy => by
          have := hlater y hy
          simp only [ne_eq, decide_not, Bool.not_eq_true', decide_eq_false_iff_not]
          omega
      rw [List.filter_cons_of_neg (by simpa using he), List.filter_cons_of_pos (by simpa using he),
        hnone, hall, List.nil_append]

theorem flatMap_filter_of_ascend {ps : List Int} (hps : ps.Pairwise (· < ·))
    (hmem : ∀ x ∈ l, number x ∈ ps) (hl : l.Pairwise fun x y => number x ≤ number y) :
    (ps.flatMap fun p => l.filter fun x => number x = p) = l := by
  induction ps generalizing l with
  | nil =>
    cases l with
    | nil => rfl
    | cons x l => exact absurd (hmem x List.mem_cons_self) List.not_mem_nil
  | cons p ps ih =>
    obtain ⟨hfirst, hps⟩ := List.pairwise_cons.1 hps
    have hle : ∀ x ∈ l, p ≤ number x := by
      intro x hx
      rcases List.mem_cons.1 (hmem x hx) with he | he
      · exact Int.le_of_eq he.symm
      · exact Int.le_of_lt (hfirst _ he)
    -- The later numbers are found among the rows behind those of the first.
    have hrest : ∀ q ∈ ps, (l.filter fun x => number x = q) =
        (l.filter fun x => number x ≠ p).filter fun x => number x = q := by
      intro q hq
      have hne : q ≠ p := Int.ne_of_gt (hfirst q hq)
      rw [List.filter_filter]
      refine List.filter_congr fun x _ => ?_
      by_cases he : number x = q
      · simp [he, hne]
      · simp [he]
    have hmem' : ∀ x ∈ l.filter fun x => number x ≠ p, number x ∈ ps := by
      intro x hx
      obtain ⟨hx, hne⟩ := List.mem_filter.1 hx
      exact (List.mem_cons.1 (hmem x hx)).resolve_left (of_decide_eq_true hne)
    rw [List.flatMap_cons, List.flatMap_congr hrest, ih hps hmem' (hl.filter _)]
    exact filter_append_filter_of_ascend hle hl

/-- Rows whose numbers never descend are their blocks in turn. -/
theorem flatten_blocksBy (hl : l.Pairwise fun x y => number x ≤ number y) :
    (blocksBy number l).flatMap Prod.snd = l := by
  rw [blocksBy, List.flatMap_map]
  exact flatMap_filter_of_ascend (Groups.distinct_ascends _)
    (fun _ hx => (Groups.mem_distinct _ _).2 (List.mem_map_of_mem hx)) hl

/-- The numbers that occur are known from what occurs. -/
theorem Groups.distinct_congr {ps qs : List Int} (h : ∀ p, p ∈ ps ↔ p ∈ qs) :
    distinct ps = distinct qs := by
  refine (distinct_ascends ps).eq_of_mem_iff (distinct_ascends qs) fun p => ?_
  rw [mem_distinct, mem_distinct, h p]

/-- Gathering the blocks by coarser numbers is gathering the rows by these at once. -/
theorem blocksBy_blocksBy (coarse : Int → Int) (hl : l.Pairwise fun x y => number x ≤ number y) :
    (blocksBy (fun b => coarse b.1) (blocksBy number l)).map (fun b => (b.1, b.2.flatMap Prod.snd)) =
      blocksBy (fun x => coarse (number x)) l := by
  have hnumbers : Groups.distinct ((blocksBy number l).map fun b => coarse b.1) =
      Groups.distinct (l.map fun x => coarse (number x)) := by
    refine Groups.distinct_congr fun p => ?_
    simp only [blocksBy, List.map_map, List.mem_map, Function.comp_apply, Groups.mem_distinct,
      exists_exists_and_eq_and]
  have hblocks : ∀ p, ((blocksBy number l).filter fun b => coarse b.1 = p).flatMap Prod.snd =
      l.filter fun x => coarse (number x) = p := by
    intro p
    -- A finer number belongs to `p` or not, and so do all rows of its block together.
    have hfiner : ∀ q ∈ (Groups.distinct (l.map number)).filter fun q => coarse q = p,
        (l.filter fun x => number x = q) =
          (l.filter fun x => coarse (number x) = p).filter fun x => number x = q := by
      intro q hq
      have hqp : coarse q = p := of_decide_eq_true (List.mem_filter.1 hq).2
      rw [List.filter_filter]
      refine List.filter_congr fun x _ => ?_
      by_cases he : number x = q
      · simp [he, hqp]
      · simp [he]
    have hmem : ∀ x ∈ l.filter fun x => coarse (number x) = p,
        number x ∈ (Groups.distinct (l.map number)).filter fun q => coarse q = p := by
      intro x hx
      obtain ⟨hx, hxp⟩ := List.mem_filter.1 hx
      exact List.mem_filter.2 ⟨(Groups.mem_distinct _ _).2 (List.mem_map_of_mem hx), hxp⟩
    rw [blocksBy, List.filter_map, List.flatMap_map]
    exact (List.flatMap_congr hfiner).trans
      (flatMap_filter_of_ascend ((Groups.distinct_ascends _).filter _) hmem (hl.filter _))
  rw [blocksBy, hnumbers, blocksBy, List.map_map]
  exact List.map_congr_left fun p _ => congrArg (Prod.mk p) (hblocks p)

theorem blocksBy_map {γ : Type} (f : γ → β) (l : List γ) :
    blocksBy number (l.map f) = (blocksBy (number ∘ f) l).map (Prod.map id (List.map f)) := by
  simp only [blocksBy, List.map_map, List.filter_map, Function.comp_def, Prod.map_apply, id_eq]

end Blocks

/-- A gathered column has one cell for each block. -/
theorem Cells.combined_blocksBy {γ : Type} (combine : List γ → γ) (number : β → Int) (cell : β → γ)
    (l : List β) :
    combined combine (l.map fun x => some (number x)) (Groups.distinct (l.map number)) (l.map cell) =
      (blocksBy number l).map fun b => combine (b.2.map cell) := by
  have hplaced : placedRows (l.map fun x => some (number x)) (l.map cell) =
      l.map fun x => (number x, cell x) := by
    rw [placedRows, List.zip_map', List.filterMap_map]
    exact congrFun List.filterMap_eq_map' l
  rw [combined_eq, hplaced, blocksBy, List.map_map]
  refine List.map_congr_left fun p _ => ?_
  show combine (((l.map fun x => (number x, cell x)).filter fun r => r.1 = p).map Prod.snd) = _
  rw [List.filter_map, List.map_map]
  rfl

end Cashflow

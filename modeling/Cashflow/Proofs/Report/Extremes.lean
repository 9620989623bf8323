import Mathlib.Order.Hom.Basic
import Mathlib.Data.List.NodupEquivFin
import Cashflow.Proofs.Amount.Differences
import Cashflow.Report.Kpi

/-!
# Drawdown and low point

The path of a run is its opening balance and the balances after it (`Run.path`). The drawdown, one
pass with the highest value so far, is the greatest of all differences of a value of the path and
one that is no earlier (`GreatestFall`); the low point, one pass too, is the least value of the path
with the month that first attains it, and no month if the path never goes below its start
(`Run.LowPoint`). `Run.extremes` has both, and how the low point stands to the drawdown and to the
months below a threshold.

All is stated for bounded numbers of any type whose comparison and subtraction go together
(`Amount.Ordered`), so for exact numbers and for finite doubles; a difference of doubles is rounded,
or infinite where it is out of their range.
-/

namespace Cashflow
open Amount

/-! ## Two places of a path -/

section InOrder
variable {β : Type} {us vs : List β} {v x y : β}

/-- `x` and `y` stand on the path, `x` no later than `y`. -/
def InOrder (vs : List β) (x y : β) : Prop :=
  ∃ i j : Nat, i ≤ j ∧ vs[i]? = some x ∧ vs[j]? = some y

theorem InOrder.of_sublist (hs : us.Sublist vs) (h : InOrder us x y) :
    InOrder vs x y := by
  obtain ⟨i, j, hij, hx, hy⟩ := h
  obtain ⟨f, hf⟩ := List.sublist_iff_exists_orderEmbedding_getElem?_eq.1 hs
  exact ⟨f i, f j, f.monotone hij, (hf i).symm.trans hx, (hf j).symm.trans hy⟩

theorem inOrder_cons :
    InOrder (v :: vs) x y ↔ (x = v ∧ y ∈ v :: vs) ∨ InOrder vs x y := by
  constructor
  · rintro ⟨i, j, hij, hx, hy⟩
    cases i with
    | zero => exact .inl ⟨(Option.some.inj hx).symm, List.mem_of_getElem? hy⟩
    | succ i =>
      cases j with
      | zero => exact absurd hij (by omega)
      | succ j => exact .inr ⟨i, j, by omega, hx, hy⟩
  · rintro (⟨rfl, hy⟩ | h)
    · obtain ⟨j, hj⟩ := List.mem_iff_getElem?.1 hy
      exact ⟨0, j, Nat.zero_le j, rfl, hj⟩
    · exact h.of_sublist (List.sublist_cons_self v vs)

theorem InOrder.right_mem (h : InOrder vs x y) : y ∈ vs := by
  obtain ⟨-, j, -, -, hy⟩ := h
  exact List.mem_of_getElem? hy

theorem InOrder.left_mem (h : InOrder vs x y) : x ∈ vs := by
  obtain ⟨i, -, -, hx, -⟩ := h
  exact List.mem_of_getElem? hx

theorem InOrder.of_mem (h : x ∈ vs) : InOrder vs x x := by
  obtain ⟨i, hi⟩ := List.mem_iff_getElem?.1 h
  exact ⟨i, i, le_refl i, hi, hi⟩

end InOrder

variable {α : Type} [Amount α]

/-- The opening balance and the balances of the months. -/
def Run.path (r : Run α) : List α := r.opening :: r.balances.values

/-- `d` is the greatest difference of a value of the path and one that is no earlier. -/
structure GreatestFall (vs : List α) (d : α) : Prop where
  reached : ∃ x y, InOrder vs x y ∧ d = x - y
  bound : ∀ x y, InOrder vs x y → x - y ≤ d

/-- No value of the path is below an earlier one. -/
def NeverFalls (vs : List α) : Prop := ∀ x y, InOrder vs x y → x ≤ y

/-- The higher of two, the first of equals. -/
def higher (p v : α) : α := if p < v then v else p

theorem higher_cases (p v : α) : higher p v = v ∨ higher p v = p := by
  unfold higher
  split
  · exact .inl rfl
  · exact .inr rfl

theorem isBounded_higher {p v : α} (hp : isBounded p = true) (hv : isBounded v = true) :
    isBounded (higher p v) = true := by
  rcases higher_cases p v with h | h
  · rw [h]
    exact hv
  · rw [h]
    exact hp

variable [Amount.Ordered α]

theorem le_higher {p v : α} (hp : p ≤ p) (hv : v ≤ v) : p ≤ higher p v ∧ v ≤ higher p v := by
  unfold higher
  split
  case isTrue h => exact ⟨Ordered.le_of_lt hp hv h, hv⟩
  case isFalse h => exact ⟨hp, Ordered.le_of_not_lt hp hv h⟩

/-! ## The drawdown -/

theorem drops_cons {p v : α} (hv : isBounded v = true) (vs : List α) :
    Run.drops (some p) (v :: vs) = (higher p v - v) :: Run.drops (some (higher p v)) vs := by
  rw [Run.drops, if_neg (not_isMissing (Ordered.there hv))]
  rfl

/-- Every drop is a fall of the path that begins with the peak. -/
theorem inOrder_of_mem_drops {p : α} {vs : List α} (hvs : ∀ v ∈ vs, isBounded v = true) {d : α}
    (hd : d ∈ Run.drops (some p) vs) : ∃ x y, InOrder (p :: vs) x y ∧ d = x - y := by
  induction vs generalizing p with
  | nil => exact absurd hd List.not_mem_nil
  | cons v vs ih =>
    obtain ⟨hv, hvs⟩ := List.forall_mem_cons.1 hvs
    rw [drops_cons hv, List.mem_cons] at hd
    rcases hd with rfl | hd
    · refine ⟨higher p v, v, ?_, rfl⟩
      rcases higher_cases p v with h | h
      · rw [h]
        exact .of_mem (by simp)
      · rw [h]
        exact inOrder_cons.2 (.inl ⟨rfl, by simp⟩)
    · obtain ⟨x, y, hxy, rfl⟩ := ih hvs hd
      refine ⟨x, y, hxy.of_sublist ?_, rfl⟩
      rcases higher_cases p v with h | h
      · rw [h]
        exact List.sublist_cons_self p (v :: vs)
      · rw [h]
        exact (List.sublist_cons_self v vs).cons_cons p

/-- No fall from the peak or from below it, or from a later value, is above all drops. -/
theorem exists_mem_drops {p : α} {vs : List α} (hp : isBounded p = true)
    (hvs : ∀ v ∈ vs, isBounded v = true) {x y : α} (hx : isBounded x = true)
    (h : (x ≤ p ∧ y ∈ vs) ∨ InOrder vs x y) : ∃ d ∈ Run.drops (some p) vs, x - y ≤ d := by
  induction vs generalizing p with
  | nil =>
    rcases h with ⟨-, h⟩ | h
    · exact absurd h List.not_mem_nil
    · exact absurd h.right_mem List.not_mem_nil
  | cons v vs ih =>
    obtain ⟨hv, hvs⟩ := List.forall_mem_cons.1 hvs
    have htop := isBounded_higher hp hv
    obtain ⟨hple, hvle⟩ := le_higher (Ordered.there hp) (Ordered.there hv)
    -- the fall is from below the next peak, or it is later
    have hnext : (x ≤ higher p v ∧ y ∈ v :: vs) ∨ InOrder vs x y := by
      rcases h with ⟨hxp, hy⟩ | h
      · exact .inl ⟨Ordered.le_trans hxp hple, hy⟩
      · rcases inOrder_cons.1 h with ⟨rfl, hy⟩ | h
        · exact .inl ⟨hvle, hy⟩
        · exact .inr h
    rw [drops_cons hv]
    simp only [List.mem_cons, exists_eq_or_imp] at hnext ⊢
    rcases hnext with ⟨hxt, rfl | hy⟩ | h
    · exact .inl (Ordered.sub_le_sub hx htop hv hxt)
    · exact .inr (ih htop hvs (.inl ⟨hxt, hy⟩))
    · exact .inr (ih htop hvs (.inr h))

/-- The largest of numbers that are all there. -/
theorem largest_some {b : α} {ds : List α} (hds : ∀ d ∈ b :: ds, d ≤ d) :
    ∃ m, Run.largest (some b) ds = some m ∧ m ∈ b :: ds ∧ ∀ d ∈ b :: ds, d ≤ m := by
  induction ds generalizing b with
  | nil => exact ⟨b, rfl, List.mem_singleton_self b, by simpa using hds⟩
  | cons v ds ih =>
    simp only [List.forall_mem_cons] at hds
    obtain ⟨hb, hv, hds⟩ := hds
    have hhigher : higher b v ≤ higher b v := by
      rcases higher_cases b v with h | h <;> rw [h] <;> assumption
    obtain ⟨m, hm, hmem, hmax⟩ := ih (List.forall_mem_cons.2 ⟨hhigher, hds⟩)
    obtain ⟨htop, hmax⟩ := List.forall_mem_cons.1 hmax
    obtain ⟨hble, hvle⟩ := le_higher hb hv
    refine ⟨m, ?_, ?_, ?_⟩
    · rw [Run.largest, if_neg (not_isMissing hv)]
      exact hm
    · rcases List.mem_cons.1 hmem with rfl | hmem
      · rcases higher_cases b v with h | h <;> simp [h]
      · simp [hmem]
    · exact List.forall_mem_cons.2 ⟨Ordered.le_trans hble htop,
        List.forall_mem_cons.2 ⟨Ordered.le_trans hvle htop, hmax⟩⟩

/-- The drawdown of a run with bounded balances. -/
theorem Run.greatestFall_maxDrawdown {r : Run α} (hpath : ∀ v ∈ r.path, isBounded v = true) :
    ∃ d, r.maxDrawdown? = some d ∧ GreatestFall r.path d := by
  obtain ⟨hopening, hvalues⟩ := List.forall_mem_cons.1 hpath
  have hfalls : ∀ d ∈ (r.opening - r.opening) :: drops (some r.opening) r.balances.values,
      ∃ x y, InOrder r.path x y ∧ d = x - y := by
    refine List.forall_mem_cons.2 ⟨?_, fun d hd => inOrder_of_mem_drops hvalues hd⟩
    exact ⟨r.opening, r.opening, .of_mem List.mem_cons_self, rfl⟩
  have hthere : ∀ d ∈ (r.opening - r.opening) :: drops (some r.opening) r.balances.values,
      d ≤ d := by
    intro d hd
    obtain ⟨x, y, hxy, rfl⟩ := hfalls d hd
    exact Ordered.sub_there (hpath x hxy.left_mem) (hpath y hxy.right_mem)
  obtain ⟨d, hd, hmem, hmax⟩ := largest_some hthere
  obtain ⟨hzero, hmax⟩ := List.forall_mem_cons.1 hmax
  refine ⟨d, ?_, hfalls d hmem, ?_⟩
  · rw [maxDrawdown?, drops, if_neg (not_isMissing (Ordered.there hopening)), largest,
      if_neg (not_isMissing (Ordered.sub_there hopening hopening))]
    exact hd
  · intro x y hxy
    rcases inOrder_cons.1 hxy with ⟨rfl, hy⟩ | h
    · rcases List.mem_cons.1 hy with rfl | hy
      · exact hzero
      · obtain ⟨e, he, hle⟩ := exists_mem_drops hopening hvalues hopening
          (.inl ⟨Ordered.there hopening, hy⟩)
        exact Ordered.le_trans hle (hmax e he)
    · obtain ⟨e, he, hle⟩ := exists_mem_drops hopening hvalues (hvalues x h.left_mem) (.inr h)
      exact Ordered.le_trans hle (hmax e he)

theorem GreatestFall.nonneg {vs : List α} {d : α} (h : GreatestFall vs d)
    (hvs : ∀ v ∈ vs, isBounded v = true) : 0 ≤ d := by
  obtain ⟨x, y, hxy, -⟩ := h.reached
  have hx := hvs x hxy.left_mem
  exact Ordered.le_trans ((Ordered.sub_nonneg hx hx).2 (Ordered.there hx))
    (h.bound x x (.of_mem hxy.left_mem))

/-- There is no fall but where a value is below an earlier one. -/
theorem GreatestFall.beq_zero_iff {vs : List α} {d : α} (h : GreatestFall vs d)
    (hvs : ∀ v ∈ vs, isBounded v = true) : (d == 0) = true ↔ NeverFalls vs := by
  rw [Ordered.beq_iff, and_iff_left (h.nonneg hvs)]
  constructor
  · intro hd x y hxy
    exact (Ordered.sub_nonpos (hvs x hxy.left_mem) (hvs y hxy.right_mem)).1
      (Ordered.le_trans (h.bound x y hxy) hd)
  · intro hnever
    obtain ⟨x, y, hxy, rfl⟩ := h.reached
    exact (Ordered.sub_nonpos (hvs x hxy.left_mem) (hvs y hxy.right_mem)).2 (hnever x y hxy)

/-! ## The low point -/

/-- `p` is the least value of the path, with the month that first attains it: none if the path
starts there. -/
structure Run.LowPoint (r : Run α) (p : Option String × α) : Prop where
  reached : p.2 ∈ r.path
  bound : ∀ v ∈ r.path, p.2 ≤ v
  opening : p.1 = none ↔ (p.2 == r.opening) = true
  earliest : ∀ k, p.1 = some k → ∃ before after,
    r.balances.entries = before ++ (k, p.2) :: after ∧ ∀ e ∈ before, p.2 < e.2

/-- `(k, x)` is the first entry with the least value, and below `v`. -/
structure FirstBelow (v : α) (es : List (String × α)) (k : String) (x : α) : Prop where
  lt : x < v
  split : ∃ before after, es = before ++ (k, x) :: after ∧ (∀ e ∈ before, x < e.2) ∧
    ∀ e ∈ after, x ≤ e.2

namespace FirstBelow
variable {v w : α} {es : List (String × α)} {k : String} {x : α}

omit [Amount.Ordered α] in
theorem mem (h : FirstBelow v es k x) : (k, x) ∈ es := by
  obtain ⟨-, before, after, rfl, -⟩ := h
  exact List.mem_append_right before List.mem_cons_self

omit [Amount.Ordered α] in
theorem cons {e : String × α} (h : FirstBelow v es k x) (hw : x < w) (he : x < e.2) :
    FirstBelow w (e :: es) k x := by
  obtain ⟨-, before, after, rfl, hbefore, hafter⟩ := h
  exact ⟨hw, e :: before, after, rfl, List.forall_mem_cons.2 ⟨he, hbefore⟩, hafter⟩

theorem le (h : FirstBelow v es k x) (hes : ∀ e ∈ es, e.2 ≤ e.2) : ∀ e ∈ es, x ≤ e.2 := by
  have hx : x ≤ x := hes _ h.mem
  obtain ⟨-, before, after, rfl, hbefore, hafter⟩ := h
  intro e he
  rcases List.mem_append.1 he with he' | he'
  · exact Ordered.le_of_lt hx (hes e he) (hbefore e he')
  · rcases List.mem_cons.1 he' with rfl | he'
    · exact hx
    · exact hafter e he'

end FirstBelow

/-- The pass over the entries keeps its candidate, or ends at the first of the least. -/
theorem lowestFrom_cases (best : Option String × α) {es : List (String × α)}
    (hbest : best.2 ≤ best.2) (hes : ∀ e ∈ es, e.2 ≤ e.2) :
    (Run.lowestFrom best es = best ∧ ∀ e ∈ es, best.2 ≤ e.2) ∨
      ∃ k x, Run.lowestFrom best es = (some k, x) ∧ FirstBelow best.2 es k x := by
  induction es generalizing best with
  | nil => exact .inl ⟨rfl, fun e he => absurd he List.not_mem_nil⟩
  | cons e es ih =>
    obtain ⟨k, v⟩ := e
    obtain ⟨hv, hes⟩ := List.forall_mem_cons.1 hes
    rw [Run.lowestFrom]
    by_cases hlt : v < best.2
    · rw [if_pos hlt]
      rcases ih (some k, v) hv hes with ⟨heq, hle⟩ | ⟨j, x, heq, hx⟩
      · exact .inr ⟨k, v, heq, hlt, [], es, rfl, by simp, hle⟩
      · have hvle := Ordered.le_of_lt hv hbest hlt
        exact .inr ⟨j, x, heq, hx.cons (Ordered.lt_of_lt_of_le (hes _ hx.mem) hbest hx.lt hvle) hx.lt⟩
    · rw [if_neg hlt]
      have hle := Ordered.le_of_not_lt hv hbest hlt
      rcases ih best hbest hes with ⟨heq, hmin⟩ | ⟨j, x, heq, hx⟩
      · exact .inl ⟨heq, List.forall_mem_cons.2 ⟨hle, hmin⟩⟩
      · exact .inr ⟨j, x, heq, hx.cons hx.lt (Ordered.lt_of_lt_of_le (hes _ hx.mem) hv hx.lt hle)⟩

theorem Run.lowPoint_lowestBalance {r : Run α} (hpath : ∀ v ∈ r.path, isBounded v = true) :
    r.LowPoint r.lowestBalance := by
  obtain ⟨hopening, hvalues⟩ := List.forall_mem_cons.1 hpath
  have hthere := Ordered.there hopening
  have hentries : ∀ e ∈ r.balances.entries, e.2 ≤ e.2 := fun e he =>
    Ordered.there (hvalues e.2 (List.mem_map_of_mem he))
  rcases lowestFrom_cases (none, r.opening) hthere hentries with ⟨heq, hmin⟩ | ⟨k, x, heq, hx⟩
  · rw [show r.lowestBalance = (none, r.opening) from heq]
    refine ⟨List.mem_cons_self, List.forall_mem_cons.2 ⟨hthere, List.forall_mem_map.2 hmin⟩, ?_, ?_⟩
    · exact iff_of_true rfl (Ordered.beq_iff.2 ⟨hthere, hthere⟩)
    · intro k hk
      contradiction
  · rw [show r.lowestBalance = (some k, x) from heq]
    have hxthere := hentries _ hx.mem
    have hnot := (Ordered.lt_iff hxthere hthere).1 hx.lt
    refine ⟨List.mem_cons_of_mem _ (List.mem_map_of_mem hx.mem), ?_, ?_, ?_⟩
    · exact List.forall_mem_cons.2
        ⟨Ordered.le_of_lt hxthere hthere hx.lt, List.forall_mem_map.2 (hx.le hentries)⟩
    · exact iff_of_false (by simp) fun hbeq => hnot (Ordered.beq_iff.1 hbeq).2
    · intro j hj
      obtain rfl := Option.some.inj hj
      obtain ⟨before, after, hsplit, hbefore, -⟩ := hx.split
      exact ⟨before, after, hsplit, hbefore⟩

omit [Amount.Ordered α] in
theorem Run.mem_monthsBelow {r : Run α} {t : α} {k : String} :
    k ∈ r.monthsBelow t ↔ ∃ v, (k, v) ∈ r.balances.entries ∧ v < t := by
  simp [monthsBelow]

/-- Below a threshold that the run does not start under, months are listed if and only if the low
point is, and it is one of them. -/
theorem Run.LowPoint.monthsBelow {r : Run α} {p : Option String × α} (h : r.LowPoint p)
    (hpath : ∀ v ∈ r.path, isBounded v = true) {t : α} (ht : t ≤ r.opening) :
    (r.monthsBelow t ≠ [] ↔ p.2 < t) ∧ (p.2 < t → ∃ k ∈ r.monthsBelow t, p.1 = some k) := by
  have htthere := Ordered.there_of_le ht
  have hlow := hpath p.2 h.reached
  have hlisted : p.2 < t → ∃ k ∈ r.monthsBelow t, p.1 = some k := by
    intro hlt
    cases hk : p.1 with
    | none =>
      have hopening := (Ordered.beq_iff.1 (h.opening.1 hk)).2
      exact absurd (Ordered.le_trans ht hopening)
        ((Ordered.lt_iff (Ordered.there hlow) htthere).1 hlt)
    | some k =>
      obtain ⟨before, after, hsplit, -⟩ := h.earliest k hk
      exact ⟨k, mem_monthsBelow.2 ⟨p.2, by simp [hsplit], hlt⟩, rfl⟩
  refine ⟨⟨fun hne => ?_, fun hlt => ?_⟩, hlisted⟩
  · obtain ⟨k, hk⟩ := List.exists_mem_of_ne_nil _ hne
    obtain ⟨v, hv, hvt⟩ := mem_monthsBelow.1 hk
    have hmem : v ∈ r.path := List.mem_cons_of_mem _ (List.mem_map_of_mem hv)
    exact Ordered.lt_of_le_of_lt (Ordered.there (hpath v hmem)) htthere (h.bound v hmem) hvt
  · obtain ⟨k, hk, -⟩ := hlisted hlt
    exact List.ne_nil_of_mem hk

/-- The drawdown and the low point are the true extremes of the path. -/
theorem Run.extremes (r : Run α) (hopening : isBounded r.opening = true)
    (hbalances : ∀ v ∈ r.balances.values, isBounded v = true) :
    (∃ d, r.maxDrawdown? = some d ∧ GreatestFall r.path d ∧ 0 ≤ d ∧
        ((d == 0) = true ↔ NeverFalls r.path) ∧ r.opening - r.lowestBalance.2 ≤ d) ∧
      r.LowPoint r.lowestBalance ∧
      ∀ t, t ≤ r.opening →
        (r.monthsBelow t ≠ [] ↔ r.lowestBalance.2 < t) ∧
          (r.lowestBalance.2 < t → ∃ k ∈ r.monthsBelow t, r.lowestBalance.1 = some k) := by
  have hpath : ∀ v ∈ r.path, isBounded v = true := List.forall_mem_cons.2 ⟨hopening, hbalances⟩
  obtain ⟨d, hd, hfall⟩ := greatestFall_maxDrawdown hpath
  have hlow := lowPoint_lowestBalance hpath
  have hfirst : InOrder r.path r.opening r.lowestBalance.2 := inOrder_cons.2 (.inl ⟨rfl, hlow.reached⟩)
  exact ⟨⟨d, hd, hfall, hfall.nonneg hpath, hfall.beq_zero_iff hpath, hfall.bound _ _ hfirst⟩, hlow,
    fun t ht => hlow.monthsBelow hpath ht⟩

/-- A path with its peak after the start, and two months at its lowest. -/
def sharedLow : Run Float :=
  { cashflow := .empty
    balances := (((Keyed.empty.put "2025-01" 120.5).put "2025-02" 50).put "2025-03" 90).put "2025-04" 50
    opening := 100 }

theorem Run.extremes_sharedLow :
    ∃ d, sharedLow.maxDrawdown? = some d ∧ GreatestFall sharedLow.path d ∧ d = 70.5 ∧
      sharedLow.LowPoint sharedLow.lowestBalance ∧
      sharedLow.lowestBalance = (some "2025-02", 50) := by
  obtain ⟨⟨d, hd, hfall, -⟩, hlow, -⟩ :=
    Run.extremes sharedLow (by decide +kernel) (by decide +kernel)
  have hvalue : sharedLow.maxDrawdown? = some 70.5 := by decide +kernel
  exact ⟨d, hd, hfall, Option.some.inj (hd.symm.trans hvalue), hlow, by decide +kernel⟩

end Cashflow

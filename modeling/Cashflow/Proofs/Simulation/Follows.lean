import Cashflow.Proofs.Simulation.Turns

/-!
# The books follow the trace

A month in progress follows a trace when its balance, its history and its entry are those of the
trace (`Trace.Follows`). Both passes keep this from turn to turn (`pass_agrees`), hence a month does
(`evaluate_agrees`) and hence any months in ascending order do (`evaluateMonths_agrees`): the books
they leave are those of the trace, or both stop at a stuck turn.
-/

namespace Cashflow

/-- Both ended with related states, or both stopped for want of a year. -/
inductive Agrees {σ τ ρ : Type} (R : σ → τ → Prop) : Option σ → Except (Halted ρ) τ → Prop where
  | done {s : σ} {t : τ} (h : R s t) : Agrees R (some s) (.ok t)
  | stuck {x : Halted ρ} (h : x.fault = .value (.wholeText "")) : Agrees R none (.error x)

namespace Agrees
variable {σ τ σ' τ' ρ : Type} {R : σ → τ → Prop} {R' : σ' → τ' → Prop}

theorem bind {x : Option σ} {y : Except (Halted ρ) τ} {f : σ → Option σ'}
    {g : τ → Except (Halted ρ) τ'} (h : Agrees R x y) (hfg : ∀ s t, R s t → Agrees R' (f s) (g t)) :
    Agrees R' (x >>= f) (y >>= g) := by
  cases h with
  | done h => exact hfg _ _ h
  | stuck h => exact .stuck h

end Agrees

namespace Trace
variable {α : Type} [Amount α] {opening : α}

/-- The trace after one more turn, unless it is stuck. -/
def visit? (opening : α) (H : Trace α) (t : Turn α) : Option (Trace α) :=
  if H.Stuck t then none else some (visit opening H t)

theorem eq_foldl_of_foldlM {H H' : Trace α} {ts : List (Turn α)}
    (h : ts.foldlM (visit? opening) H = some H') : H' = ts.foldl (visit opening) H := by
  induction ts generalizing H with
  | nil => exact (Option.some.inj h).symm
  | cons t ts ih =>
    rw [List.foldlM_cons] at h
    obtain ⟨H₁, h₁, h⟩ := Option.bind_eq_some_iff.1 h
    unfold visit? at h₁
    split at h₁
    · cases h₁
    · rw [← Option.some.inj h₁] at h
      exact ih h

/-- The month in progress is the given one and holds what the trace says. -/
structure Follows (opening : α) (month : Date) (H : Trace α) (o : OpenMonth α) : Prop where
  month_eq : o.month = month
  balance : o.balance = H.balance opening
  history : o.history = H.history
  entry : o.entry = H.entry month

namespace Follows
variable {month : Date} {H : Trace α} {o : OpenMonth α} (h : Follows opening month H o)
include h

theorem shown : H.Shown o.moment where
  history := h.history
  fired := by
    show o.entry.events = (H.during o.month).map Turn.event
    rw [h.entry, h.month_eq]
    rfl
  foreign := rfl

theorem fire (e : Event α) : Follows opening month (H ++ [⟨month, e⟩]) (o.fire e) where
  month_eq := h.month_eq
  balance := by
    rw [balance_append, ← h.balance]
    rfl
  history := by
    rw [history_concat, ← h.history, ← h.month_eq]
    rfl
  entry := by
    have hd : during [(⟨month, e⟩ : Turn α)] month = [⟨month, e⟩] :=
      during_eq_self fun t ht => congrArg Turn.month (List.mem_singleton.1 ht)
    show o.entry.add e = Trace.entry (H ++ [⟨month, e⟩]) month
    rw [h.entry, Trace.entry, Trace.entry, during_append, hd, signed_append, List.map_append]
    show Entry.mk _ _ = Entry.mk _ _
    congr 1
    exact (Amount.total_concat _ _).symm

theorem refresh : Follows opening month H o.refresh := ⟨h.month_eq, h.balance, h.history, h.entry⟩

end Follows

/-! ## Passes -/

section Passes
variable {r : Registry} {month : Date} {H : Trace α} {o : OpenMonth α}

/-- A pass agrees with its turns. The balance that conditions see has to be the running one for
events with a balance condition: the first pass has none of these, the second shows it anew after
each firing. -/
theorem pass_agrees (apply : OpenMonth α → Event α → OpenMonth α)
    (happly : ∀ {H o} (e : Event α), Follows opening month H o →
      Follows opening month (H ++ [⟨month, e⟩]) (apply o e))
    {es : List (Event α)} (hr : ∀ e ∈ es, r.defect? e = none) (h : Follows opening month H o)
    (hb : (∀ e ∈ es, e.isBalanceGated = false) ∨
      o.shown = o.balance ∧ ∀ o e, (apply o e).shown = (apply o e).balance) :
    Agrees (Follows opening month) ((es.map fun e => ⟨month, e⟩).foldlM (visit? opening) H)
      (OpenMonth.pass r apply es o) := by
  induction es generalizing H o with
  | nil => exact .done h
  | cons e es ih =>
    rw [List.forall_mem_cons] at hr
    have hsees : ¬ e.IgnoresBalance → o.moment.balance = H.balance opening := by
      intro he
      rcases hb with hb | ⟨hb, -⟩
      · exact absurd (Event.ignoresBalance_of_not_gated (hb e List.mem_cons_self)) he
      · exact hb.trans h.balance
    have hnext : (∀ e ∈ es, e.isBalanceGated = false) ∨
        o.shown = o.balance ∧ ∀ o e, (apply o e).shown = (apply o e).balance :=
      hb.imp_left fun hb e' he' => hb e' (List.mem_cons_of_mem e he')
    have hfire := h.shown.shouldFire_eq hr.1 hsees
    have hm : o.moment.month = month := h.month_eq
    rw [hm] at hfire
    rw [List.map_cons, List.foldlM_cons, OpenMonth.pass, hfire]
    by_cases hs : H.Stuck ⟨month, e⟩
    · rw [visit?, if_pos hs, if_pos hs]
      exact .stuck rfl
    · rw [visit?, if_neg hs, if_neg hs]
      by_cases hf : Fires opening H ⟨month, e⟩
      · rw [visit_of_fires hf, decide_eq_true hf]
        exact ih hr.2 (happly e h) (hnext.imp_right fun hb => ⟨hb.2 o e, hb.2⟩)
      · rw [visit_of_not_fires hf, decide_eq_false hf]
        exact ih hr.2 h hnext

theorem firstPass_agrees {es : List (Event α)} (hr : ∀ e ∈ es, r.defect? e = none)
    (hb : ∀ e ∈ es, e.isBalanceGated = false) (h : Follows opening month H o) :
    Agrees (Follows opening month) ((es.map fun e => ⟨month, e⟩).foldlM (visit? opening) H)
      (o.firstPass r es) :=
  pass_agrees OpenMonth.fire (fun e h => h.fire e) hr h (Or.inl hb)

theorem secondPass_agrees {es : List (Event α)} (hr : ∀ e ∈ es, r.defect? e = none)
    (h : Follows opening month H o) :
    Agrees (Follows opening month) ((es.map fun e => ⟨month, e⟩).foldlM (visit? opening) H)
      (o.refresh.secondPass r es) :=
  pass_agrees (fun o e => (o.fire e).refresh) (fun e h => (h.fire e).refresh) hr h.refresh
    (Or.inr ⟨rfl, fun _ _ => rfl⟩)

theorem evaluate_agrees {first second : List (Event α)}
    (hr : ∀ e ∈ first ++ second, r.defect? e = none) (hb : ∀ e ∈ first, e.isBalanceGated = false)
    (h : Follows opening month H o) :
    Agrees (Follows opening month)
      (((first ++ second).map fun e => ⟨month, e⟩).foldlM (visit? opening) H)
      (o.evaluate r first second) := by
  rw [List.forall_mem_append] at hr
  rw [List.map_append, List.foldlM_append]
  exact (firstPass_agrees hr.1 hb h).bind fun _ _ h => secondPass_agrees hr.2 h

end Passes

/-! ## Months -/

theorem follows_openMonth {H : Trace α} {months : List Date} {month : Date}
    (h : H.during month = []) :
    Follows opening month H ((H.books opening months).openMonth month) where
  month_eq := rfl
  balance := rfl
  history := rfl
  entry := by
    show ({} : Entry α) = H.entry month
    rw [Trace.entry, h]
    rfl

/-- The firings of a later month leave the entries and the closings before it as they are. -/
theorem books_concat {months : List Date} {month : Date} (hlt : ∀ m ∈ months, m < month)
    {H K : Trace α} (hH : ∀ t ∈ H, t.month ∈ months) (hK : ∀ t ∈ K, t.month = month) :
    books opening (months ++ [month]) (H ++ K) =
      { balance := balance opening (H ++ K)
        cashflow := (H.books opening months).cashflow.put month.key (entry (H ++ K) month)
        balances := (H.books opening months).balances.put month.key (balance opening (H ++ K))
        history := history (H ++ K) } := by
  have hentry : ∀ m ∈ months, (m.key, entry (H ++ K) m) = (m.key, H.entry m) := by
    intro m hm
    have hd : during K m = [] := during_eq_nil fun t ht he =>
      Date.ne_of_lt (hlt m hm) (he.symm.trans (hK t ht))
    rw [entry, entry, during_append, hd, List.append_nil]
  have hclose : ∀ m ∈ months,
      (m.key, balance opening (upTo (H ++ K) m)) = (m.key, (H.upTo m).balance opening) := by
    intro m hm
    have hu : upTo K m = [] := upTo_eq_nil fun t ht => hK t ht ▸ hlt m hm
    rw [upTo_append, hu, List.append_nil]
  have hlast : upTo (H ++ K) month = H ++ K := upTo_eq_self fun t ht => by
    rcases List.mem_append.1 ht with ht | ht
    · exact Date.le_of_lt (hlt _ (hH t ht))
    · exact hK t ht ▸ Date.le_refl _
  simp only [books, List.map_append, List.map_cons, List.map_nil, Keyed.ofList_concat, hlast,
    List.map_congr_left hentry, List.map_congr_left hclose]

theorem evaluateMonth_agrees {r : Registry} {events : List (Event α)}
    (hr : ∀ e ∈ events, r.defect? e = none) {months : List Date} {month : Date}
    (hlt : ∀ m ∈ months, m < month) {H : Trace α} (hH : ∀ t ∈ H, t.month ∈ months) :
    Agrees (fun K b => K = (turns [month] events).foldl (visit opening) H ∧
        b = K.books opening (months ++ [month]))
      ((turns [month] events).foldlM (visit? opening) H)
      ((H.books opening months).evaluateMonth r (passes events).1 (passes events).2 month) := by
  have hd : H.during month = [] := during_eq_nil fun t ht he =>
    Date.ne_of_lt (hlt t.month (hH t ht)) he
  have hparts : ∀ e ∈ (passes events).1 ++ (passes events).2, r.defect? e = none := by
    intro e he
    rcases List.mem_append.1 he with he | he <;> exact hr e (List.mem_filter.1 he).1
  have hstart : Follows opening month H ((H.books opening months).openMonth month) :=
    follows_openMonth hd
  have h := evaluate_agrees hparts (fun _ => not_gated_of_mem_firstPass) hstart
  rw [← turns_singleton] at h
  unfold Books.evaluateMonth
  generalize hT : (turns [month] events).foldlM (visit? opening) H = T at h ⊢
  generalize ((H.books opening months).openMonth month).evaluate r _ _ = y at h ⊢
  cases h with
  | stuck hx => exact .stuck hx
  | done h =>
    obtain rfl := eq_foldl_of_foldlM hT
    obtain ⟨K, hK, hs⟩ := foldl_visit opening H (turns [month] events)
    have hKm : ∀ t ∈ K, t.month = month := fun t ht =>
      List.mem_singleton.1 (mem_turns.1 (hs.mem ht)).1
    refine .done ⟨rfl, ?_⟩
    rw [hK] at h ⊢
    rw [books_concat hlt hH hKm, Books.close, h.month_eq, h.balance, h.history, h.entry]

/-- Months in ascending order leave the books of the trace of their turns. -/
theorem evaluateMonths_agrees {r : Registry} {events : List (Event α)}
    (hr : ∀ e ∈ events, r.defect? e = none) (opening : α) {months : List Date}
    (hs : months.Pairwise (· < ·)) :
    Agrees (fun H b => H = ofTurns opening (turns months events) ∧ b = H.books opening months)
      ((turns months events).foldlM (visit? opening) [])
      (({ balance := opening } : Books α).evaluateMonths r events months) := by
  induction months using List.reverseRecOn with
  | nil => exact .done ⟨rfl, rfl⟩
  | append_singleton months month ih =>
    obtain ⟨hs, -, hlt⟩ := List.pairwise_append.1 hs
    have hlt : ∀ m ∈ months, m < month := fun m hm => hlt m hm month (List.mem_singleton_self month)
    unfold Books.evaluateMonths at ih ⊢
    rw [turns_append, List.foldlM_append, List.foldlM_append]
    refine (ih hs).bind fun H b h => ?_
    obtain ⟨rfl, rfl⟩ := h
    have hH : ∀ t ∈ ofTurns opening (turns months events), t.month ∈ months :=
      fun t ht => (mem_turns.1 (mem_of_mem_ofTurns ht)).1
    simp only [List.foldlM_cons, List.foldlM_nil, bind_pure, ofTurns_append]
    exact evaluateMonth_agrees hr hlt hH

end Trace

end Cashflow

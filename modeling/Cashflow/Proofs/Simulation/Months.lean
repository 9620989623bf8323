import Cashflow.Proofs.Simulation.Outcome

/-!
# A month within a run

From the year zero on no turn is stuck: months have an outcome, and so has any part of the turns of
the month after them (`evaluateMonths_of_nonneg`, `firstPass_of_nonneg`, `evaluate_of_nonneg`). The
trace of a run up to a month is the trace of the months up to it (`upTo_ofTurns`,
`flatMap_during_ofTurns`), so the month begins and ends as the trace of the run says (`exists_month`).
-/

namespace Cashflow

theorem Agrees.exists_of_some {σ τ ρ : Type} {R : σ → τ → Prop} {s : σ} {y : Except (Halted ρ) τ}
    (h : Agrees R (some s) y) : ∃ t, y = .ok t ∧ R s t := by
  cases h with
  | done h => exact ⟨_, rfl, h⟩

variable {α : Type} [Amount α] {opening : α}

namespace Trace

theorem forall_mem_foldl_visit {P : Turn α → Prop} {H : Trace α} {ts : List (Turn α)}
    (hH : ∀ u ∈ H, P u) (hts : ∀ t ∈ ts, P t) : ∀ u ∈ ts.foldl (visit opening) H, P u := by
  obtain ⟨K, hK, hs⟩ := foldl_visit opening H ts
  rw [hK, List.forall_mem_append]
  exact ⟨hH, fun u hu => hts u (hs.mem hu)⟩

theorem foldlM_visit?_of_nonneg {H : Trace α} {ts : List (Turn α)}
    (hH : ∀ u ∈ H, 0 ≤ u.month.year) (hts : ∀ t ∈ ts, 0 ≤ t.month.year) :
    ts.foldlM (visit? opening) H = some (ts.foldl (visit opening) H) := by
  have hstuck : ∀ before t after, ts = before ++ t :: after →
      ¬ Stuck (before.foldl (visit opening) H) t := by
    rintro before t after rfl
    exact not_stuck_of_nonneg
      (forall_mem_foldl_visit hH fun u hu => hts u (List.mem_append_left _ hu)) t
  obtain ⟨K, hK⟩ := foldlM_visit?_iff.2 hstuck
  rw [hK, eq_foldl_of_foldlM hK]

theorem evaluateMonths_of_nonneg {r : Registry} {events : List (Event α)}
    (hr : ∀ e ∈ events, r.defect? e = none) (opening : α) {months : List Date}
    (hs : months.Pairwise (· < ·)) (hy : ∀ m ∈ months, 0 ≤ m.year) :
    ({ balance := opening } : Books α).evaluateMonths r events months =
      .ok ((ofTurns opening (turns months events)).books opening months) := by
  have h := evaluateMonths_agrees hr opening hs
  rw [foldlM_visit?_of_nonneg (H := []) nofun fun t ht => hy _ (mem_turns.1 ht).1] at h
  obtain ⟨b, hb, -, rfl⟩ := h.exists_of_some
  exact hb

section Passes
variable {r : Registry} {month : Date} {H : Trace α} {start : OpenMonth α}
  (h : Follows opening month H start) (hH : ∀ u ∈ H, 0 ≤ u.month.year) (hm : 0 ≤ month.year)
include h hH hm

theorem firstPass_of_nonneg {events : List (Event α)} (hr : ∀ e ∈ events, r.defect? e = none) :
    ∃ o, start.firstPass r (passes events).1 = .ok o ∧
      Follows opening month
        (((passes events).1.map fun e => ⟨month, e⟩).foldl (visit opening) H) o := by
  have hagree := firstPass_agrees (fun e he => hr e (List.mem_filter.1 he).1)
    (fun _ => not_gated_of_mem_firstPass) h
  rw [foldlM_visit?_of_nonneg hH (List.forall_mem_map.2 fun _ _ => hm)] at hagree
  exact hagree.exists_of_some

/-- The second pass may be that of other events, of the first of them for one. -/
theorem evaluate_of_nonneg {events events' : List (Event α)}
    (hr : ∀ e ∈ events, r.defect? e = none) (hr' : ∀ e ∈ events', r.defect? e = none) :
    ∃ o, start.evaluate r (passes events).1 (passes events').2 = .ok o ∧
      Follows opening month
        ((((passes events).1 ++ (passes events').2).map fun e => ⟨month, e⟩).foldl
          (visit opening) H) o := by
  have hwired : ∀ e ∈ (passes events).1 ++ (passes events').2, r.defect? e = none :=
    List.forall_mem_append.2 ⟨fun e he => hr e (List.mem_filter.1 he).1,
      fun e he => hr' e (List.mem_filter.1 he).1⟩
  have hagree := evaluate_agrees hwired (fun _ => not_gated_of_mem_firstPass) h
  rw [foldlM_visit?_of_nonneg hH (List.forall_mem_map.2 fun _ _ => hm)] at hagree
  exact hagree.exists_of_some

end Passes

/-- What an event that does not look at the balance does in a month that follows a trace. -/
theorem Follows.shouldFire_eq {r : Registry} {month : Date} {H : Trace α} {o : OpenMonth α}
    {e : Event α} (h : Follows opening month H o) (hH : ∀ u ∈ H, 0 ≤ u.month.year)
    (hr : r.defect? e = none) (hfree : e.IgnoresBalance) :
    e.shouldFire r o.moment = .ok (decide (Fires opening H ⟨month, e⟩)) := by
  obtain rfl := h.month_eq
  rw [h.shown.shouldFire_eq hr fun hsees => absurd hfree hsees, if_neg (not_stuck_of_nonneg hH _)]
  rfl

theorem upTo_ofTurns {before after : List Date} {m : Date}
    (hs : (before ++ m :: after).Pairwise (· < ·)) (events : List (Event α)) :
    (ofTurns opening (turns (before ++ m :: after) events)).upTo m =
      ofTurns opening (turns (before ++ [m]) events) := by
  obtain ⟨-, hs', hlt⟩ := List.pairwise_append.1 hs
  obtain ⟨hgt, -⟩ := List.pairwise_cons.1 hs'
  rw [List.append_cons, turns_append, ofTurns_append]
  obtain ⟨K, hK, hsub⟩ := foldl_visit opening (ofTurns opening (turns (before ++ [m]) events))
    (turns after events)
  rw [hK, upTo_append, upTo_eq_self, upTo_eq_nil, List.append_nil]
  · exact fun t ht => hgt t.month (mem_turns.1 (hsub.mem ht)).1
  · intro t ht
    rcases List.mem_append.1 (mem_turns.1 (mem_of_mem_ofTurns ht)).1 with hm | hm
    · exact Date.le_of_lt (hlt t.month hm m List.mem_cons_self)
    · rw [List.mem_singleton.1 hm]
      exact Date.le_refl m

/-- The firings of the first months are the trace of the first months. -/
theorem flatMap_during_ofTurns (opening : α) {before after : List Date}
    (hn : (before ++ after).Nodup) (events : List (Event α)) :
    before.flatMap (ofTurns opening (turns (before ++ after) events)).during =
      ofTurns opening (turns before events) := by
  obtain ⟨hbefore, -, hapart⟩ := List.nodup_append.1 hn
  have hown := ofTurns_eq_flatMap opening events hbefore
  rw [turns_append, ofTurns_append]
  obtain ⟨L, hL, hsub⟩ :=
    foldl_visit opening (ofTurns opening (turns before events)) (turns after events)
  rw [hL]
  conv_rhs => rw [hown]
  rw [List.flatMap_def, List.flatMap_def]
  congr 1
  refine List.map_congr_left fun m hm => ?_
  have hlater : L.during m = [] := during_eq_nil fun t ht he =>
    hapart m hm t.month (mem_turns.1 (hsub.mem ht)).1 he.symm
  rw [during_append, hlater, List.append_nil]

theorem entry_upTo (H : Trace α) (m : Date) : (H.upTo m).entry m = H.entry m := by
  have hd : (H.upTo m).during m = H.during m := by
    rw [upTo, during, List.filter_filter]
    refine List.filter_congr fun t _ => ?_
    by_cases h : t.month = m
    · simp [h, Date.le_refl]
    · simp [h]
  rw [entry, entry, hd]

/-- A month begins after the trace of the months before it and ends with the trace up to it. -/
theorem exists_month {r : Registry} {events : List (Event α)}
    (hr : ∀ e ∈ events, r.defect? e = none) (opening : α) {before after : List Date} {m : Date}
    (hs : (before ++ m :: after).Pairwise (· < ·)) (hy : ∀ d ∈ before ++ m :: after, 0 ≤ d.year) :
    ∃ b o, ({ balance := opening } : Books α).evaluateMonths r events before = .ok b ∧
      (b.openMonth m).evaluate r (passes events).1 (passes events).2 = .ok o ∧
      Follows opening m (ofTurns opening (turns before events)) (b.openMonth m) ∧
      Follows opening m ((ofTurns opening (turns (before ++ m :: after) events)).upTo m) o := by
  obtain ⟨hsbefore, -, hlt⟩ := List.pairwise_append.1 hs
  rw [List.forall_mem_append, List.forall_mem_cons] at hy
  have hmonth : ∀ u ∈ ofTurns opening (turns before events), u.month ∈ before := fun u hu =>
    (mem_turns.1 (mem_of_mem_ofTurns hu)).1
  have hb := evaluateMonths_of_nonneg hr opening hsbefore hy.1
  rw [upTo_ofTurns hs, turns_append, ofTurns_append, turns_singleton]
  generalize ofTurns opening (turns before events) = H at hmonth hb ⊢
  have hstart : Follows opening m H ((H.books opening before).openMonth m) :=
    follows_openMonth (during_eq_nil fun u hu =>
      Date.ne_of_lt (hlt _ (hmonth u hu) m List.mem_cons_self))
  obtain ⟨o, ho, hclose⟩ :=
    evaluate_of_nonneg hstart (fun u hu => hy.1 _ (hmonth u hu)) hy.2.1 hr hr
  exact ⟨_, o, hb, ho, hstart, hclose⟩

end Trace

end Cashflow

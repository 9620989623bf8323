import Cashflow.Proofs.Document.Written

/-!
# Reading back what is written

A scenario is written as a mapping and read back without being judged (`Scenario.toValue`,
`Scenario.ofValue`). Whatever its words, dates and numbers are, it comes back as it was, condition by
condition and event by event, except that an empty mapping of annotations is none afterwards; and it
is written the same again.
-/

namespace Cashflow

theorem Condition.ofValue_toValue (c : Condition Float) : Condition.ofValue c.toValue = .ok c := by
  cases c with
  | dateInRange first last => cases last <;> rfl
  | _ => rfl

namespace Event

theorem notes_withoutEmptyNotes (e : Event Float) : e.withoutEmptyNotes.notes = e.notes := by
  show (e.metadata.filter Value.isTruthy).filter Value.isTruthy = e.metadata.filter Value.isTruthy
  rw [Option.filter_filter]
  simp only [Bool.and_self]

theorem wire_withoutEmptyNotes (e : Event Float) : e.withoutEmptyNotes.wire = e.wire := by
  rw [wire, notes_withoutEmptyNotes]
  rfl

theorem HasNotes.withoutEmptyNotes {e : Event Float} (he : e.HasNotes) :
    e.withoutEmptyNotes.HasNotes :=
  fun _ hv => notes_eq_ofNotes he hv

theorem ofValue_wire {e : Event Float} (he : e.HasNotes) :
    Event.ofValue e.wire = .ok e.withoutEmptyNotes := by
  have hconditions : (e.conditions.map Condition.toValue).mapM Condition.ofValue = .ok e.conditions :=
    mapM_eq_ok.2 (List.forall₂_map_left_iff.2 (List.forall₂_same.2 fun c _ => c.ofValue_toValue))
  have hread : Event.ofValue e.wire = (e.conditions.map Condition.toValue).mapM Condition.ofValue >>=
      fun conditions => pure ⟨e.name, e.type, e.amount, e.recurrence, conditions, e.notes⟩ := by
    unfold wire
    cases hn : e.notes with
    | none => rfl
    | some v =>
      obtain ⟨notes, rfl⟩ := notes_eq_ofNotes he hn
      rfl
  rw [hread, hconditions]
  rfl

end Event

namespace Scenario

/-- The mapping that is written for a scenario. -/
def wire (s : Scenario Float) : Value :=
  .mapping [("name", .text s.name), ("events", .list (s.events.map Event.wire))]

section Notes
variable {s : Scenario Float} (hs : ∀ e ∈ s.events, e.HasNotes)
include hs

theorem toValue_eq_wire : s.toValue = .ok s.wire := by
  have hevents : s.events.mapM Event.toValue = .ok (s.events.map Event.wire) :=
    mapM_eq_ok.2 (List.forall₂_map_right_iff.2 (List.forall₂_same.2 fun e he =>
      Event.toValue_eq_wire (hs e he)))
  rw [toValue, hevents]
  rfl

theorem ofValue_wire : Scenario.ofValue s.wire = .ok s.withoutEmptyNotes := by
  have hevents : (s.events.map Event.wire).mapM Event.ofValue =
      .ok (s.events.map Event.withoutEmptyNotes) :=
    mapM_eq_ok.2 (List.forall₂_map_left_iff.2 (List.forall₂_map_right_iff.2
      (List.forall₂_same.2 fun e he => Event.ofValue_wire (hs e he))))
  have hread : Scenario.ofValue s.wire = (s.events.map Event.wire).mapM Event.ofValue >>=
      fun events => pure ⟨s.name, events⟩ := by
    cases s with
    | mk name events => cases events <;> rfl
  rw [hread, hevents]
  rfl

theorem hasNotes_withoutEmptyNotes : ∀ e ∈ s.withoutEmptyNotes.events, e.HasNotes := by
  intro e he
  obtain ⟨e', he', rfl⟩ := List.mem_map.1 he
  exact (hs e' he').withoutEmptyNotes

end Notes

theorem wire_withoutEmptyNotes (s : Scenario Float) : s.withoutEmptyNotes.wire = s.wire := by
  simp only [wire, withoutEmptyNotes, List.map_map, Function.comp_def, Event.wire_withoutEmptyNotes]

/-- A scenario with annotations that are texts is read back as it was written, but for empty
annotations, and is written the same again. It counts as the same if its numbers are there, and so
does each condition by itself. -/
theorem ofValue_toValue_of_hasNotes {s : Scenario Float} (hs : ∀ e ∈ s.events, e.HasNotes) :
    (∃ v, s.toValue = .ok v ∧ Scenario.ofValue v = .ok s.withoutEmptyNotes ∧
      s.withoutEmptyNotes.toValue = .ok v) ∧
    ((∀ x ∈ s.numbers, (x == x) = true) → s.withoutEmptyNotes.sameBy (· == ·) s = true) ∧
    ∀ c : Condition Float, Condition.ofValue c.toValue = .ok c ∧
      ((∀ x ∈ c.thresholds, (x == x) = true) → c.sameBy (· == ·) c = true) := by
  refine ⟨⟨s.wire, toValue_eq_wire hs, ofValue_wire hs, ?_⟩, fun hx => ?_, fun c => ?_⟩
  · rw [toValue_eq_wire (hasNotes_withoutEmptyNotes hs), wire_withoutEmptyNotes]
  · exact sameBy_of_bare_eq (bare_withoutEmptyNotes s) hx
  · exact ⟨c.ofValue_toValue, Condition.sameBy_self⟩

/-- Words that mean nothing, dates that are none, and annotations of both sorts. -/
def oddments : Scenario Float where
  name := ""
  events := [
    ⟨"", "gift", 0, "", [.dateIs ⟨0, -3, 0⟩, .dateInRange ⟨-5, 0, 99⟩ none,
      .dateInRange ⟨2025, 1, 1⟩ (some ⟨0, 0, 0⟩), .networthIsAbove "" 0, .eventHappened "",
      .incomeIsAbove "" (-1)], some (Value.ofNotes [])⟩,
    ⟨"Bonus", "income", 90, "weekly", [], some (Value.ofNotes [("source", "payslip")])⟩]

theorem ofValue_toValue_oddments :
    (∀ e ∈ oddments.events, e.HasNotes) ∧
      oddments.withoutEmptyNotes.events.map Event.metadata =
        [none, some (Value.ofNotes [("source", "payslip")])] ∧
      ∃ v, oddments.toValue = .ok v ∧ Scenario.ofValue v = .ok oddments.withoutEmptyNotes ∧
        oddments.withoutEmptyNotes.toValue = .ok v := by
  have hnotes : ∀ e ∈ oddments.events, e.HasNotes := by
    refine List.forall_mem_cons.2 ⟨fun v hv => ?_, List.forall_mem_singleton.2 fun v hv => ?_⟩
    · exact ⟨[], (Option.some.inj hv).symm⟩
    · exact ⟨[("source", "payslip")], (Option.some.inj hv).symm⟩
  exact ⟨hnotes, rfl, (ofValue_toValue_of_hasNotes hnotes).1⟩

end Scenario

end Cashflow

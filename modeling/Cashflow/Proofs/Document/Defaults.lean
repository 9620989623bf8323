import Cashflow.Proofs.Calendar.Decoding
import Cashflow.Proofs.Document.Written

/-!
# Defaults of a run, written and loaded again

Dates are loaded from texts or from their parts and always written as texts. A text is checked when
it is read, the parts are not, so that a date can be loaded whose text does not load
(`ofMapping_toEntries_defaults`).

* `writtenEntries` : what is written, unless a number has no text (`toEntries_cases`);
* `runDefaults_writtenEntries` : it loads as the defaults it was written for, if these are plain; if
  not, the first date that is not plain is refused;
* `isPlain_of_runDefaults` : defaults that were texts or absent are plain.
-/

namespace Cashflow

/-- Both dates read back from their texts. -/
structure RunDefaults.IsPlain (d : RunDefaults) : Prop where
  first : ∀ e ∈ d.first, e.IsPlain
  last : ∀ e ∈ d.last, e.IsPlain

namespace Document

/-- A date as the text that is written for it, null for no date. -/
def dateEntry (d : Option Date) : Value := (d.map fun e => .text e.text).getD .null

section Dates
variable {π : Type} {place : π}

theorem date_dateEntry_eq_ok {d e : Option Date} :
    date place (dateEntry d) = .ok e ↔ e = d ∧ ∀ x ∈ d, x.IsPlain := by
  cases d with
  | none =>
    constructor
    · intro h
      cases h
      exact ⟨rfl, fun x hx => absurd hx (Option.not_mem_none x)⟩
    · rintro ⟨rfl, -⟩
      rfl
  | some d =>
    rw [dateEntry, Option.map_some, Option.getD_some, date]
    constructor
    · intro h
      split at h
      · rename_i hparse
        cases h
        obtain ⟨rfl, hplain⟩ := Date.parse_text_eq_ok.1 hparse
        refine ⟨rfl, fun x hx => ?_⟩
        cases hx
        exact hplain
      · cases h
    · rintro ⟨rfl, hplain⟩
      rw [Date.parse_text_eq_ok.2 ⟨rfl, hplain d rfl⟩]

theorem date_dateEntry_of_not_plain (place : π) {d : Option Date} (h : ¬ ∀ x ∈ d, x.IsPlain) :
    ∃ f, date place (dateEntry d) = problem place (.dateText f) := by
  cases d with
  | none => exact absurd (fun x hx => absurd hx (Option.not_mem_none x)) h
  | some d =>
    rw [dateEntry, Option.map_some, Option.getD_some, date]
    cases hparse : Date.parse d.text with
    | ok e =>
      refine absurd (fun x hx => ?_) h
      cases hx
      exact (Date.parse_text_eq_ok.1 hparse).2
    | error f => exact ⟨f, rfl⟩

/-- A date that is loaded from a text reads back from its own. -/
theorem isPlain_of_spellsIfAny {v : Value} (hv : v = .null ∨ ∃ s, v = .text s) {d : Option Date}
    (h : SpellsIfAny v d) : ∀ x ∈ d, x.IsPlain := by
  rcases h with ⟨-, rfl⟩ | ⟨e, he, rfl⟩
  · exact fun x hx => absurd hx (Option.not_mem_none x)
  · rcases hv with rfl | ⟨s, rfl⟩
    · cases he
    · cases he with
      | text hparse =>
        intro x hx
        cases hx
        exact Date.isPlain_of_parse hparse

end Dates

/-! ## The entries of defaults -/

/-- What is written for a scenario with defaults whose numbers all have a text. -/
def writtenEntries (s : Scenario Float) (d : RunDefaults) : List (String × Value) :=
  wireEntries s (defaultEntries d)

section Written
variable {s : Scenario Float} {d : RunDefaults}

theorem fieldOf_writtenEntries (s : Scenario Float) (d : RunDefaults) :
    fieldOf (writtenEntries s d) "start" = dateEntry d.first ∧
      fieldOf (writtenEntries s d) "end" = dateEntry d.last ∧
      Value.lookup "initial_balance" (writtenEntries s d) = some (.float d.opening) ∧
      Value.lookup "name" (writtenEntries s d) = some (.text s.name) ∧
      fieldOf (writtenEntries s d) "events" = .list (s.events.map Event.wire) := by
  obtain ⟨first, last, opening⟩ := d
  cases first <;> cases last <;> exact ⟨rfl, rfl, rfl, rfl, rfl⟩

theorem toEntries_of_defaultsFields (hs : s.IsLoadable)
    (h : defaultsFields d = .ok (defaultEntries d)) :
    toEntries s (some d) = .ok (writtenEntries s d) :=
  (toEntries_eq_ok hs).2 ⟨defaultEntries d, h, rfl⟩

/-- A scenario is written with its defaults unless a number in them has no text. -/
theorem toEntries_cases (hs : s.IsLoadable) (d : RunDefaults) :
    toEntries s (some d) = .error .longNumber ∨ toEntries s (some d) = .ok (writtenEntries s d) := by
  have hfields := defaultsFields_eq d
  split at hfields
  · left
    rw [toEntries, Option.map_some, Option.getD_some, hfields]
    rfl
  · exact Or.inr (toEntries_of_defaultsFields hs hfields)

theorem toEntries_of_isPlain (hs : s.IsLoadable) (hd : d.IsPlain) :
    toEntries s (some d) = .ok (writtenEntries s d) := by
  have hany : ∀ o : Option Date, (∀ e ∈ o, e.IsPlain) →
      o.any (fun e => (Value.date e).isUnwritten) = false := by
    intro o ho
    cases o with
    | none => rfl
    | some e => rw [Option.any_some, Date.isUnwritten_date.2 (ho e rfl).short]
  refine toEntries_of_defaultsFields hs ?_
  rw [defaultsFields_eq, hany _ hd.first, hany _ hd.last]
  rfl

theorem runDefaults_writtenEntries (hd : d.IsPlain) : runDefaults (writtenEntries s d) = .ok d := by
  obtain ⟨hfirst, hlast, hopening, -, -⟩ := fieldOf_writtenEntries s d
  rw [runDefaults, hfirst, hlast, hopening, date_dateEntry_eq_ok.2 ⟨rfl, hd.first⟩,
    date_dateEntry_eq_ok.2 ⟨rfl, hd.last⟩]
  rfl

/-- The first date that is not plain is refused. -/
theorem runDefaults_writtenEntries_of_not_plain (hd : ¬ d.IsPlain) :
    ∃ key ∈ ["start", "end"], ∃ f,
      runDefaults (writtenEntries s d) = problem (.field key) (.dateText f) := by
  obtain ⟨hfirst, hlast, -, -, -⟩ := fieldOf_writtenEntries s d
  rw [runDefaults, hfirst, hlast]
  -- The start is read first, so the end is met only behind a plain start.
  by_cases hplain : ∀ e ∈ d.first, e.IsPlain
  · have hbad : ¬ ∀ e ∈ d.last, e.IsPlain := fun h => hd ⟨hplain, h⟩
    obtain ⟨f, hf⟩ := date_dateEntry_of_not_plain (Place.field "end") hbad
    rw [date_dateEntry_eq_ok.2 ⟨rfl, hplain⟩, hf]
    exact ⟨"end", by decide, f, rfl⟩
  · obtain ⟨f, hf⟩ := date_dateEntry_of_not_plain (Place.field "start") hplain
    rw [hf]
    exact ⟨"start", by decide, f, rfl⟩

theorem ofMapping_of_runDefaults_problem {entries : List (String × Value)} {name : String}
    (hname : documentName entries = .ok name) {place : Place} {p : Problem}
    (h : runDefaults entries = problem place p) :
    ofMapping entries = .error (.load (.problem mappingSource place p)) := by
  rw [ofMapping, ofEntries, parts, hname, h]
  rfl

end Written

theorem isPlain_of_runDefaults {entries : List (String × Value)} {d : RunDefaults}
    (h : runDefaults entries = .ok d)
    (hspelled : ∀ key ∈ ["start", "end"],
      fieldOf entries key = .null ∨ ∃ s, fieldOf entries key = .text s) : d.IsPlain := by
  obtain ⟨hfirst, hlast, -⟩ := runDefaults_eq_ok.1 h
  exact ⟨isPlain_of_spellsIfAny (hspelled "start" (by decide)) hfirst,
    isPlain_of_spellsIfAny (hspelled "end" (by decide)) hlast⟩

/-! ## Round trip -/

/-- Defaults whose dates are plain come back as they are. When one is not, either it is not written or
what is written of it is refused; this needs dates in parts, those from texts being plain. -/
theorem ofMapping_toEntries_defaults {entries : List (String × Value)} {doc : Document}
    (h : ofMapping entries = .ok doc) :
    (doc.defaults.IsPlain →
      ∃ written again, toEntries doc.scenario (some doc.defaults) = .ok written ∧
        (∀ limit, writtenDepth ≤ limit → ofMappingWithin limit written = .ok again) ∧
        again.defaults = doc.defaults) ∧
    (¬ doc.defaults.IsPlain →
      toEntries doc.scenario (some doc.defaults) = .error .longNumber ∨
      ∃ written, toEntries doc.scenario (some doc.defaults) = .ok written ∧
        ∃ key ∈ ["start", "end"], ∃ f, ∀ limit, writtenDepth ≤ limit →
          ofMappingWithin limit written =
            .error (.load (.problem mappingSource (.field key) (.dateText f)))) ∧
    ((∀ key ∈ ["start", "end"],
      fieldOf entries key = .null ∨ ∃ s, fieldOf entries key = .text s) → doc.defaults.IsPlain) := by
  have hs := isLoadable_of_ofMapping h
  obtain ⟨-, -, hdefaults, -⟩ := ofMapping_eq_ok.1 h
  obtain ⟨-, -, -, hname, hevents⟩ := fieldOf_writtenEntries doc.scenario doc.defaults
  refine ⟨fun hplain => ?_, fun hbad => ?_, isPlain_of_runDefaults hdefaults⟩
  · have hwritten := toEntries_of_isPlain hs hplain
    refine ⟨_, ⟨doc.scenario.withoutEmptyNotes, doc.defaults, mappingSource⟩, hwritten,
      fun limit hlimit => ?_, rfl⟩
    rw [ofMappingWithin_of_depth_le (Nat.le_trans (depth_toEntries hs hwritten) hlimit)]
    exact ofMapping_wire hs hname hevents (runDefaults_writtenEntries hplain)
  · have hdocumentName : documentName (writtenEntries doc.scenario doc.defaults) = .ok doc.scenario.name :=
      documentName_eq_ok.2 ⟨by rw [hname, Option.getD_some], hs.name⟩
    obtain ⟨key, hkey, f, hf⟩ := runDefaults_writtenEntries_of_not_plain (s := doc.scenario) hbad
    have hrefused := ofMapping_of_runDefaults_problem hdocumentName hf
    rcases toEntries_cases hs doc.defaults with hlong | hwritten
    · exact Or.inl hlong
    · refine Or.inr ⟨_, hwritten, key, hkey, f, fun limit hlimit => ?_⟩
      rw [ofMappingWithin_of_depth_le (Nat.le_trans (depth_toEntries hs hwritten) hlimit)]
      exact hrefused

/-- A start in a thirteenth month, which loads in parts only. -/
def thirteenthMonth : List (String × Value) :=
  [("name", .text "Plan"), ("start", .mapping [("y", .int 2025), ("m", .int 13)]), ("events", .list [])]

theorem ofMapping_toEntries_thirteenthMonth :
    ofMapping thirteenthMonth = .ok ⟨⟨"Plan", []⟩, { first := some ⟨2025, 13, 1⟩ }, "<mapping>"⟩ ∧
      ¬ RunDefaults.IsPlain { first := some ⟨2025, 13, 1⟩ } ∧
      (toEntries ⟨"Plan", []⟩ (some { first := some ⟨2025, 13, 1⟩ }) = .error .longNumber ∨
        ∃ written, toEntries ⟨"Plan", []⟩ (some { first := some ⟨2025, 13, 1⟩ }) = .ok written ∧
          ∃ key ∈ ["start", "end"], ∃ f, ∀ limit, writtenDepth ≤ limit →
            ofMappingWithin limit written =
              .error (.load (.problem mappingSource (.field key) (.dateText f)))) := by
  have hload : ofMapping thirteenthMonth =
      .ok ⟨⟨"Plan", []⟩, { first := some ⟨2025, 13, 1⟩ }, "<mapping>"⟩ := rfl
  have hbad : ¬ RunDefaults.IsPlain { first := some ⟨2025, 13, 1⟩ } := fun h =>
    absurd (h.first _ rfl).month (by decide)
  exact ⟨hload, hbad, (ofMapping_toEntries_defaults hload).2.1 hbad⟩

end Document

end Cashflow

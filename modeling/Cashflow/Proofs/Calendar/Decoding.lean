import Cashflow.Simulation.History
import Cashflow.Document.Access
import Cashflow.Proofs.Calendar.DateText
import Cashflow.Proofs.Calendar.Decembers

/-!
# What text and key say of a date

The text of a date gives the date back, the key of a month its first day and, to a history, its year,
and months with one key are the same (`text_and_key_decode`). All this is for the years from zero on,
since a minus sign is a dash, and for numbers within the limit of digits: a longer one is not written
(`lateMonth_not_decoded`).

`Date.writtenKey` is the key of one month under that limit. The keys of a window are those of its
months one by one (`writtenKeys?_eq_mapM`).
-/

namespace Cashflow
open Cashflow.Text

namespace Date

/-! ## Keys under the limit of digits -/

/-- The key of the month of a date, unless its year is too long to be written. -/
def writtenKey (d : Date) : Except ValueFault String :=
  if d.isUnwritten then .error .longNumber else .ok d.key

theorem writtenKey_of_short {d : Date} (h : isTooLong d.year = false) : d.writtenKey = .ok d.key := by
  rw [writtenKey, isUnwritten_eq_isTooLong, h]
  rfl

theorem writtenKey_of_long {d : Date} (h : isTooLong d.year = true) :
    d.writtenKey = .error .longNumber := by
  rw [writtenKey, isUnwritten_eq_isTooLong, h]
  rfl

theorem mapM_writtenKey (l : List Date) :
    l.mapM writtenKey = if l.any isUnwritten then .error .longNumber else .ok (l.map key) := by
  induction l with
  | nil => rfl
  | cons d l ih =>
    rw [List.mapM_cons, ih, List.any_cons, writtenKey]
    cases d.isUnwritten with
    | true => rfl
    | false =>
      cases l.any isUnwritten with
      | true => rfl
      | false => rfl

/-- The keys of a window are written month by month. -/
theorem writtenKeys?_eq_mapM (first last : Date) :
    writtenKeys? first last = ((months first last).mapM writtenKey).toOption := by
  rw [mapM_writtenKey, writtenKeys?_eq, keys]
  cases (months first last).any isUnwritten with
  | true => rfl
  | false => rfl

/-! ## Texts under the limit of digits -/

theorem isUnwritten_date {d : Date} :
    (Value.date d).isUnwritten = false ↔ ∀ i ∈ [d.year, d.month, d.day], isTooLong i = false := by
  show [d.year, d.month, d.day].any isTooLong = false ↔ _
  simp only [List.any_eq_false, Bool.not_eq_true]

theorem written_of_short {d : Date} (h : ∀ i ∈ [d.year, d.month, d.day], isTooLong i = false) :
    (Value.date d).written = .ok d.text := by
  rw [Value.written, isUnwritten_date.2 h]
  rfl

theorem written_of_long {d : Date} {i : Int} (hi : i ∈ [d.year, d.month, d.day])
    (h : isTooLong i = true) : (Value.date d).written = .error .longNumber := by
  have hlong : (Value.date d).isUnwritten = true := List.any_eq_true.2 ⟨i, hi, h⟩
  rw [Value.written, hlong]
  rfl

/-! ## The first month that is not written -/

theorem isTooLong_lastYear_succ : isTooLong (lastYear + 1) = true := by
  have hL := le_lastYear
  rw [← isUnwritten_eq_isTooLong ⟨lastYear + 1, 1, 1⟩, isUnwritten_iff]
  show lastYear < ((lastYear + 1).natAbs : Int)
  omega

theorem months_newYear (y : Int) : months ⟨y, 12, 1⟩ ⟨y, 13, 1⟩ = [⟨y, 12, 1⟩, ⟨y + 1, 1, 1⟩] := by
  have hcount : monthsBetween ⟨y, 12, 1⟩ ⟨y, 13, 1⟩ = 2 := by
    simp only [monthsBetween]
    omega
  have hfirst : addMonths ⟨y, 12, 1⟩ 0 = ⟨y, 12, 1⟩ := addMonths_zero (hasMonth_december y)
  have hnext : addMonths ⟨y, 12, 1⟩ 1 = ⟨y + 1, 1, 1⟩ := by
    have hyear : (y * 12 + (12 - 1) + 1) / 12 = y + 1 := by omega
    have hmonth : (y * 12 + (12 - 1) + 1) % 12 + 1 = 1 := by omega
    rw [addMonths, ofIndex, index, hyear, hmonth]
  rw [months, hcount]
  exact congrArg₂ (fun m n => [m, n]) hfirst hnext

end Date

/-! ## Reading back -/

theorem Firings.lastYear_of_key {f : Firings} {d : Date} (hf : f.last = d.key) (hy : 0 ≤ d.year)
    (hs : isTooLong d.year = false) : f.lastYear = .ok d.year ∧ f.lastYear? = some d.year := by
  rw [lastYear, lastYear?, hf, Date.keyYear_key hy hs]
  exact ⟨rfl, Date.keyYear?_key hy⟩

namespace Date

/-- A date reads back from its text, the first day of a month from its key, and a history finds the
year in the key of its last month. Keys are equal just for dates of one month, on both sides of the
year zero. A date with a number too long to be written has no text, and without its year no key. -/
theorem text_and_key_decode :
    (∀ d : Date, 0 ≤ d.year → d.HasMonth → 0 ≤ d.day →
      isTooLong d.year = false → isTooLong d.day = false →
      (Value.date d).written = .ok d.text ∧ Date.parse d.text = .ok d) ∧
    (∀ d : Date, 0 ≤ d.year → d.HasMonth → isTooLong d.year = false →
      d.writtenKey = .ok d.key ∧ Date.parse d.key = .ok d.startOfMonth ∧
      ∀ f : Firings, f.last = d.key → f.lastYear = .ok d.year ∧ f.lastYear? = some d.year) ∧
    (∀ a b : Date, a.HasMonth → b.HasMonth → isTooLong a.year = false → isTooLong b.year = false →
      (a.writtenKey = b.writtenKey ↔ a.sameMonth b = true)) ∧
    (∀ d : Date, isTooLong d.year = true →
      (Value.date d).written = .error .longNumber ∧ d.writtenKey = .error .longNumber) ∧
    (∀ d : Date, isTooLong d.day = true → (Value.date d).written = .error .longNumber) := by
  refine ⟨fun d hy hm hd hys hds => ?_, fun d hy hm hys => ?_, fun a b ha hb has hbs => ?_,
    fun d hys => ?_, fun d hds => ?_⟩
  · have hshort : ∀ i ∈ [d.year, d.month, d.day], isTooLong i = false := by
      simp [hys, hm.not_tooLong, hds]
    exact ⟨written_of_short hshort, parse_text_eq_ok.2 ⟨rfl, hy, hm, hd, hshort⟩⟩
  · exact ⟨writtenKey_of_short hys, parse_key hy hm hys, fun f hf => f.lastYear_of_key hf hy hys⟩
  · rw [writtenKey_of_short has, writtenKey_of_short hbs, Except.ok.injEq, key_eq_iff ha hb]
  · exact ⟨written_of_long (by simp) hys, writtenKey_of_long hys⟩
  · exact written_of_long (by simp) hds

/-- A year of five digits, before and after the year zero, and a day that no month has. -/
theorem text_and_key_decode_june :
    HasMonth ⟨12345, 6, 31⟩ ∧ isTooLong 12345 = false ∧ isTooLong 31 = false ∧
    parse (text ⟨12345, 6, 31⟩) = .ok ⟨12345, 6, 31⟩ ∧
    parse (key ⟨12345, 6, 31⟩) = .ok ⟨12345, 6, 1⟩ ∧
    Firings.lastYear ⟨"0-01", key ⟨12345, 6, 31⟩, 2⟩ = .ok 12345 ∧
    writtenKey ⟨12345, 6, 31⟩ = writtenKey ⟨12345, 6, 1⟩ ∧
    writtenKey ⟨12345, 6, 31⟩ ≠ writtenKey ⟨-12345, 6, 31⟩ ∧
    writtenKey ⟨lastYear + 1, 1, 1⟩ = .error .longNumber ∧
    (Value.date ⟨0, 1, lastYear + 1⟩).written = .error .longNumber := by
  have hm : ∀ y d, HasMonth ⟨y, 6, d⟩ := fun _ _ => by simp [HasMonth]
  have hyear : isTooLong 12345 = false := by decide +kernel
  have hbefore : isTooLong (-12345) = false := by decide +kernel
  have hday : isTooLong 31 = false := by decide +kernel
  obtain ⟨htext, hkey, hsame, hlong, hlongDay⟩ := text_and_key_decode
  obtain ⟨-, hparse, hfirings⟩ := hkey ⟨12345, 6, 31⟩ (by decide) (hm _ _) hyear
  refine ⟨hm _ _, hyear, hday, (htext ⟨12345, 6, 31⟩ (by decide) (hm _ _) (by decide) hyear hday).2,
    hparse, (hfirings _ rfl).1, ?_, ?_, (hlong ⟨lastYear + 1, 1, 1⟩ isTooLong_lastYear_succ).2,
    hlongDay ⟨0, 1, lastYear + 1⟩ isTooLong_lastYear_succ⟩
  · exact (hsame _ _ (hm _ _) (hm _ _) hyear hyear).2 (by decide)
  · exact mt (hsame _ _ (hm _ _) (hm _ _) hyear hbefore).1 (by decide)

/-- The month after the last one that is written has a year of one digit too many: its first day is
in no text and its key cannot be written, so the months up to it have no keys. -/
theorem lateMonth_not_decoded :
    0 ≤ lastYear + 1 ∧ HasMonth ⟨lastYear + 1, 1, 1⟩ ∧
    (Value.date ⟨lastYear + 1, 1, 1⟩).written = .error .longNumber ∧
    parse (text ⟨lastYear + 1, 1, 1⟩) ≠ .ok ⟨lastYear + 1, 1, 1⟩ ∧
    writtenKey ⟨lastYear + 1, 1, 1⟩ = .error .longNumber ∧
    months ⟨lastYear, 12, 1⟩ ⟨lastYear, 13, 1⟩ = [⟨lastYear, 12, 1⟩, ⟨lastYear + 1, 1, 1⟩] ∧
    writtenKeys? ⟨lastYear, 12, 1⟩ ⟨lastYear, 13, 1⟩ = none := by
  have hL := le_lastYear
  have hlong := isTooLong_lastYear_succ
  refine ⟨by omega, ⟨by decide, by decide⟩, written_of_long (by simp) hlong, fun h => ?_,
    writtenKey_of_long hlong, months_newYear _, ?_⟩
  · have hshort := (parse_text_eq_ok.1 h).2.short (lastYear + 1) (by simp)
    rw [hlong] at hshort
    cases hshort
  · have hany : [⟨lastYear, 12, 1⟩, ⟨lastYear + 1, 1, 1⟩].any isUnwritten = true := by
      rw [List.any_cons, List.any_cons, isUnwritten_eq_isTooLong ⟨lastYear + 1, 1, 1⟩, hlong]
      simp
    rw [writtenKeys?_eq_mapM, months_newYear, mapM_writtenKey, hany]
    rfl

end Date

end Cashflow

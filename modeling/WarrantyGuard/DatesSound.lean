import Mathlib.Data.List.Nodup
import Mathlib.Data.List.GetD
import WarrantyGuard.Dates

/-!
# Reading a date back

`date(from:)` succeeds with a day exactly on the texts that spell it, so a day
written in the pattern is read back when its era is the one assumed; what the
medium style writes is read back when it happens to spell the day.
-/

namespace WarrantyGuard

theorem idxOf?_iff {l : List String} (hl : l.Nodup) {m : String} {i : Nat} :
    l.idxOf? m = some i ↔ l[i]? = some m := by
  rw [List.idxOf?_eq_some_iff]
  constructor
  · intro h
    obtain ⟨hi, hm, -⟩ := h
    rw [List.getElem?_eq_getElem hi, hm]
  · intro h
    obtain ⟨hi, rfl⟩ := List.getElem?_eq_some_iff.mp h
    refine ⟨hi, rfl, fun j hj he => ?_⟩
    exact absurd ((List.Nodup.getElem_inj_iff hl).mp he) (Nat.ne_of_lt hj)

theorem readPattern_iff {l month : List Char} {dd y : Nat} : Locale.readPattern l = some (month, dd, y) ↔
    ∃ day year, Numerals.numeral day = some dd ∧ Numerals.numeral year = some y ∧
    l = Locale.pattern month day year := by
  have hblank : Char.isDigit ' ' = false := by decide
  constructor
  · intro h
    obtain ⟨⟨rest, y'⟩, hy, h⟩ := Option.bind_eq_some_iff.mp h
    obtain ⟨⟨m, d⟩, hd, h⟩ := Option.map_eq_some_iff.mp h
    obtain ⟨year, hyear, hl⟩ := (Numerals.cut_iff [','] hblank).mp hy
    obtain ⟨day, hday, hrest⟩ := (Numerals.cut_iff [] hblank).mp hd
    cases h
    exact ⟨day, year, hday, hyear, hl.trans (congrArg (· ++ [',', ' '] ++ year) hrest)⟩
  · intro h
    obtain ⟨day, year, hday, hyear, rfl⟩ := h
    have hy : Numerals.cut [',', ' '] (Locale.pattern month day year) = some (month ++ [' '] ++ day, y) :=
      (Numerals.cut_iff [','] hblank).mpr ⟨year, hyear, rfl⟩
    have hd : Numerals.cut [' '] (month ++ [' '] ++ day) = some (month, dd) :=
      (Numerals.cut_iff [] hblank).mpr ⟨day, hday, rfl⟩
    rw [Locale.readPattern, hy, Option.bind_some, hd, Option.map_some]

section
variable (L : Locale) {d : Int} {s : String}

theorem date_pattern {month : String} {day year : List Char} {i dd y : Nat}
    (hmonth : L.shortMonthSymbols[i]? = some month) (hday : Numerals.numeral day = some dd)
    (hyear : Numerals.numeral year = some y) (hs : s.toList = Locale.pattern month.toList day year) :
    L.date s = L.calendar.date y i dd := by
  have hr : Locale.readPattern s.toList = some (month.toList, dd, y) :=
    readPattern_iff.mpr ⟨day, year, hday, hyear, hs⟩
  rw [Locale.date, hr, Option.bind_some, String.ofList_toList, (idxOf?_iff L.shortMonthSymbols_nodup).mpr hmonth,
    Option.bind_some]

theorem date_iff : L.date s = some d ↔ Spells L d s := by
  constructor
  · intro h
    obtain ⟨⟨m, dd, y⟩, hr, h⟩ := Option.bind_eq_some_iff.mp h
    obtain ⟨i, hi, h⟩ := Option.bind_eq_some_iff.mp h
    obtain ⟨day, year, hday, hyear, hs⟩ := readPattern_iff.mp hr
    have hf : L.calendar.fields d = ⟨L.calendar.era, y, i, dd⟩ := (L.calendar.date_iff y i dd d).mp h
    refine ⟨by rw [hf], String.ofList m, day, year, ?_, by rw [hf]; exact hday, by rw [hf]; exact hyear, ?_⟩
    · rw [hf]; exact (idxOf?_iff L.shortMonthSymbols_nodup).mp hi
    · rw [hs, String.toList_ofList]
  · intro h
    obtain ⟨hera, month, day, year, hmonth, hday, hyear, hs⟩ := h
    rw [date_pattern L hmonth hday hyear hs, L.calendar.date_iff, ← hera]

/-- What the pattern writes is read as the day with those fields in the assumed era. -/
theorem date_string (now : Int) :
    L.date (L.string now) = some d ↔
    L.calendar.fields d = { L.calendar.fields now with era := L.calendar.era } := by
  have hmonth := List.getElem?_eq_getElem (L.month_lt now)
  have hs : (L.string now).toList = Locale.pattern (L.shortMonthSymbols.get ⟨_, L.month_lt now⟩).toList
      (Nat.toDigits 10 (L.calendar.fields now).day) (Numerals.pad 4 (L.calendar.fields now).year) := by
    unfold Locale.string
    rw [String.toList_ofList, List.getD_eq_getElem _ _ (L.month_lt now)]; rfl
  rw [date_pattern L hmonth (Numerals.numeral_toDigits _) (Numerals.numeral_pad 4 _) hs, L.calendar.date_iff]

end

/-! ## Between two devices -/

/-- The medium style of `L` is the pattern on the day `d`. -/
def WritesPattern (L : Locale) (d : Int) (month : String) : Prop :=
  L.shortMonthSymbols[(L.calendar.fields d).month]? = some month ∧ ∃ day year,
    Numerals.numeral day = some (L.calendar.fields d).day ∧
    Numerals.numeral year = some (L.calendar.fields d).year ∧
    (L.mediumString d).toList = Locale.pattern month.toList day year

/-- Two devices of which one writes the pattern agree on a day exactly when they name its month alike
and give it the same day and year, in the era that the reader assumes. -/
theorem spells_of_writesPattern {L₁ L₂ : Locale} {d : Int} {month : String} (h : WritesPattern L₁ d month) :
    Spells L₂ d (L₁.mediumString d) ↔ (L₂.calendar.fields d).era = L₂.calendar.era ∧
      L₂.shortMonthSymbols[(L₂.calendar.fields d).month]? = some month ∧
      (L₂.calendar.fields d).day = (L₁.calendar.fields d).day ∧
      (L₂.calendar.fields d).year = (L₁.calendar.fields d).year := by
  obtain ⟨-, day, year, hday, hyear, hs⟩ := h
  constructor
  · intro h
    obtain ⟨hera, month', day', year', hmonth', hday', hyear', hs'⟩ := h
    have h₁ := readPattern_iff.mpr ⟨day, year, hday, hyear, hs⟩
    have h₂ := readPattern_iff.mpr ⟨day', year', hday', hyear', hs'⟩
    have heq := Option.some.inj (h₂.symm.trans h₁)
    simp only [Prod.mk.injEq, String.toList_inj] at heq
    obtain ⟨rfl, hd, hy⟩ := heq
    exact ⟨hera, hmonth', hd, hy⟩
  · intro h
    obtain ⟨hera, hm, hd, hy⟩ := h
    exact ⟨hera, month, day, year, hm, by rw [hd]; exact hday, by rw [hy]; exact hyear, hs⟩

end WarrantyGuard

import WarrantyGuard.Civil
import WarrantyGuard.Numerals

/-!
# Date formatters

A day is a count of days; a calendar gives it an era, a year, a month and a day
of the month, and finds the day of a date in the era it assumes where a text
names none. Neither has a time zone: a zone in which some day has no midnight, so
that a formatter reads no date on that day, is left out. A device's locale has a
calendar, abbreviated month names and a medium date style, any function of a
day's fields.

A `DateFormatter` with `dateStyle = .medium` writes in that style; one with
`dateFormat = "MMM d, yyyy"` writes and reads the month's name, a blank, the day,
a comma and a blank, and the year, which it writes with four digits at least.
Reading takes the fields from the end of the text, so that a month's name may
hold blanks and digits, and fails on every other text.
-/

namespace WarrantyGuard

structure Fields where
  era : Nat
  year : Nat
  month : Nat
  day : Nat
  deriving DecidableEq

structure Calendar where
  fields : Int → Fields
  era : Nat
  date : Nat → Nat → Nat → Option Int
  date_iff : ∀ year month day d, date year month day = some d ↔ fields d = ⟨era, year, month, day⟩

structure Locale where
  calendar : Calendar
  shortMonthSymbols : List String
  shortMonthSymbols_nodup : shortMonthSymbols.Nodup
  month_lt : ∀ d, (calendar.fields d).month < shortMonthSymbols.length
  medium : Fields → String

namespace Locale

/-- `string(from:)` with `dateStyle = .medium`. -/
def mediumString (L : Locale) (d : Int) : String := L.medium (L.calendar.fields d)

def pattern (month day year : List Char) : List Char := month ++ [' '] ++ day ++ [',', ' '] ++ year

/-- `string(from:)` with `dateFormat = "MMM d, yyyy"`. -/
def string (L : Locale) (d : Int) : String :=
  let f := L.calendar.fields d
  String.ofList (pattern (L.shortMonthSymbols.getD f.month "").toList (Nat.toDigits 10 f.day)
    (Numerals.pad 4 f.year))

def readPattern (l : List Char) : Option (List Char × Nat × Nat) :=
  (Numerals.cut [',', ' '] l).bind fun year => (Numerals.cut [' '] year.1).map fun day => (day.1, day.2, year.2)

/-- `date(from:)` with `dateFormat = "MMM d, yyyy"`. -/
def date (L : Locale) (s : String) : Option Int :=
  (readPattern s.toList).bind fun r =>
    (L.shortMonthSymbols.idxOf? (String.ofList r.1)).bind fun month => L.calendar.date r.2.2 month r.2.1

end Locale

/-- `s` is "MMM d, yyyy" for the day `d`, which is in the era that the calendar assumes. -/
structure Spells (L : Locale) (d : Int) (s : String) : Prop where
  era : (L.calendar.fields d).era = L.calendar.era
  text : ∃ month day year, L.shortMonthSymbols[(L.calendar.fields d).month]? = some month ∧
    Numerals.numeral day = some (L.calendar.fields d).day ∧
    Numerals.numeral year = some (L.calendar.fields d).year ∧ s.toList = Locale.pattern month.toList day year

/-! ## English locales -/

def gregorianFields (d : Int) : Fields :=
  let c := Civil.civil d
  ⟨if 1 ≤ c.1 then 1 else 0, (if 1 ≤ c.1 then c.1 else 1 - c.1).toNat, c.2.1.toNat, c.2.2.toNat⟩

def gregorianDate (year month day : Nat) : Option Int :=
  if gregorianFields (Civil.days year month day) = ⟨1, year, month, day⟩ then some (Civil.days year month day)
    else none

theorem days_gregorianFields {d : Int} {year month day : Nat} (h : gregorianFields d = ⟨1, year, month, day⟩) :
    Civil.days year month day = d := by
  have hm := Civil.civil_month d
  have hd := Civil.civil_day d
  unfold gregorianFields at h
  simp only [Fields.mk.injEq] at h
  obtain ⟨hera, hyear, hmonth, hday⟩ := h
  have h1 : 1 ≤ (Civil.civil d).1 := by
    by_contra hlt
    rw [if_neg hlt] at hera
    cases hera
  rw [if_pos h1] at hyear
  have := Civil.days_civil d
  rwa [show (Civil.civil d).1 = year by omega, show (Civil.civil d).2.1 = month by omega,
    show (Civil.civil d).2.2 = day by omega] at this

theorem gregorianDate_iff (year month day : Nat) (d : Int) :
    gregorianDate year month day = some d ↔ gregorianFields d = ⟨1, year, month, day⟩ := by
  unfold gregorianDate
  constructor
  · intro h
    obtain ⟨hd, h⟩ := Option.ite_none_right_eq_some.mp h
    cases h; exact hd
  · intro h
    rw [days_gregorianFields h, if_pos h]

def gregorian : Calendar := ⟨gregorianFields, 1, gregorianDate, gregorianDate_iff⟩

/-- A day from 1 January of the year 1 on, as a clock's is, lies in the era that the calendar assumes. -/
theorem gregorian_era {d : Int} (h : Civil.days 1 0 1 ≤ d) : (gregorian.fields d).era = gregorian.era :=
  if_pos (Civil.civil_year h)

def englishMonths : List String :=
  ["Jan", "Feb", "Mar", "Apr", "May", "Jun", "Jul", "Aug", "Sep", "Oct", "Nov", "Dec"]

theorem gregorian_month_lt (d : Int) : (gregorian.fields d).month < englishMonths.length := by
  have := Civil.civil_month d
  show (Civil.civil d).2.1.toNat < 12
  omega

def english (medium : Fields → String) : Locale where
  calendar := gregorian
  shortMonthSymbols := englishMonths
  shortMonthSymbols_nodup := by decide
  month_lt := gregorian_month_lt
  medium := medium

/-- "Dec 21, 2021" -/
def en_US : Locale := english fun f =>
  englishMonths.getD f.month "" ++ " " ++ toString f.day ++ ", " ++ toString f.year

/-- "21 Dec 2021" -/
def en_GB : Locale := english fun f =>
  toString f.day ++ " " ++ englishMonths.getD f.month "" ++ " " ++ toString f.year

end WarrantyGuard

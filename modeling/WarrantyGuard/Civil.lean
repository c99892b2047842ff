import Mathlib.Data.Int.Init

/-!
# The civil calendar

Days are counted from 1 January 1970, months from 0, years through a year 0. A
year is taken to begin in March, so that its leap day comes last: in the Julian
calendar four years are 1461 days and the last of them may be one day longer, in
the Gregorian one 400 years are 146097 days, of which the last century and the last
year of four may be one day longer.

`civil` is the year, the month and the day of the month of a day, by the Julian
rules before the `cutover`, 15 October 1582, and by the Gregorian ones from then on;
`days` counts the days to a date.
-/

namespace Civil

/-! ## Years from March -/

def ofMarch (y : Int × Int) : Int × Int × Int :=
  let m := (5 * y.2 + 2) / 153
  (if m < 10 then y.1 else y.1 + 1, if m < 10 then m + 2 else m - 10, y.2 - (153 * m + 2) / 5 + 1)

def toMarch (year month day : Int) : Int × Int :=
  let m := if month < 2 then month + 10 else month - 2
  (if month < 2 then year - 1 else year, (153 * m + 2) / 5 + day - 1)

/-- The March year and the day in it, of a day counted from 1 March 0. -/
def gregorianYear (z : Int) : Int × Int :=
  let r := z % 146097
  let century := min (r / 36524) 3
  let r₁ := r - 36524 * century
  let year := min (r₁ % 1461 / 365) 3
  (400 * (z / 146097) + 100 * century + 4 * (r₁ / 1461) + year, r₁ % 1461 - 365 * year)

def gregorianDay (y : Int × Int) : Int :=
  146097 * (y.1 / 400) + 36524 * (y.1 % 400 / 100) + 1461 * (y.1 % 100 / 4) + 365 * (y.1 % 4) + y.2

def julianYear (z : Int) : Int × Int :=
  let year := min (z % 1461 / 365) 3
  (4 * (z / 1461) + year, z % 1461 - 365 * year)

def julianDay (y : Int × Int) : Int := 1461 * (y.1 / 4) + 365 * (y.1 % 4) + y.2

/-! ## The two calendars -/

def cutover : Int := -141427

def march (d : Int) : Int × Int := if d < cutover then julianYear (d + 719470) else gregorianYear (d + 719468)

def civil (d : Int) : Int × Int × Int := ofMarch (march d)

def days (year month day : Int) : Int :=
  let y := toMarch year month day
  if gregorianDay y - 719468 < cutover then julianDay y - 719470 else gregorianDay y - 719468

theorem march_bounds (d : Int) : 0 ≤ (march d).2 ∧ (march d).2 ≤ 365 := by
  unfold march
  split
  · unfold julianYear; simp only; omega
  · unfold gregorianYear; simp only; omega

theorem gregorianDay_gregorianYear (z : Int) : gregorianDay (gregorianYear z) = z := by
  unfold gregorianYear gregorianDay; simp only
  generalize hr : z % 146097 = r
  generalize hn : z / 146097 = n
  generalize hc : min (r / 36524) 3 = c
  generalize hr₁ : r - 36524 * c = r₁
  generalize hq : r₁ / 1461 = q
  generalize hr₂ : r₁ % 1461 = r₂
  generalize ha : min (r₂ / 365) 3 = a
  have hcb : 0 ≤ c ∧ c ≤ 3 := by omega
  have hqb : 0 ≤ q ∧ q ≤ 24 := by omega
  have hab : 0 ≤ a ∧ a ≤ 3 := by omega
  have h400 : (400 * n + 100 * c + 4 * q + a) / 400 = n := by omega
  have h100 : (400 * n + 100 * c + 4 * q + a) % 400 / 100 = c := by omega
  have h4 : (400 * n + 100 * c + 4 * q + a) % 100 / 4 = q := by omega
  have h1 : (400 * n + 100 * c + 4 * q + a) % 4 = a := by omega
  rw [h400, h100, h4, h1]
  omega

theorem julianDay_julianYear (z : Int) : julianDay (julianYear z) = z := by
  unfold julianYear julianDay; simp only
  generalize hr : z % 1461 = r
  generalize ha : min (r / 365) 3 = a
  have hab : 0 ≤ a ∧ a ≤ 3 := by omega
  have h4 : (4 * (z / 1461) + a) / 4 = z / 1461 := by omega
  have h1 : (4 * (z / 1461) + a) % 4 = a := by omega
  rw [h4, h1]
  omega

/-- A date that the Julian calendar has before the cutover is before it in the Gregorian one too. -/
theorem gregorianDay_lt {y : Int × Int} (h : julianDay y - 719470 < cutover) (hd : 0 ≤ y.2 ∧ y.2 ≤ 365) :
    gregorianDay y - 719468 < cutover := by
  obtain ⟨year, day⟩ := y
  unfold julianDay cutover at h
  unfold gregorianDay cutover
  simp only at h hd ⊢
  -- both count 365 days for each year and the leap days in between
  have h400 : year % 400 / 100 = year / 100 - 4 * (year / 400) := by omega
  have h100 : year % 100 / 4 = year / 4 - 25 * (year / 100) := by omega
  have h4 : year % 4 = year - 4 * (year / 4) := by omega
  rw [h4] at h
  rw [h400, h100, h4]
  have hcentury : 4 * (year / 400) ≤ year / 100 ∧ year / 100 ≤ 4 * (year / 400) + 3 := by omega
  by_cases hyear : year < 200
  · omega
  · have : 2 ≤ year / 100 := by omega
    omega

theorem toMarch_ofMarch {y : Int × Int} (h : 0 ≤ y.2 ∧ y.2 ≤ 365) :
    toMarch (ofMarch y).1 (ofMarch y).2.1 (ofMarch y).2.2 = y := by
  obtain ⟨year, day⟩ := y
  simp only at h
  unfold ofMarch toMarch; simp only
  generalize hm : (5 * day + 2) / 153 = m
  have hmb : 0 ≤ m ∧ m < 12 := by omega
  by_cases hlt : m < 10
  · rw [if_pos hlt, if_pos hlt, if_neg (by omega), if_neg (by omega)]
    rw [show (153 * (m + 2 - 2) + 2) / 5 + (day - (153 * m + 2) / 5 + 1) - 1 = day by omega]
  · rw [if_neg hlt, if_neg hlt, if_pos (by omega), if_pos (by omega)]
    rw [show (153 * (m - 10 + 10) + 2) / 5 + (day - (153 * m + 2) / 5 + 1) - 1 = day by omega,
      show year + 1 - 1 = year by omega]

theorem civil_month (d : Int) : 0 ≤ (civil d).2.1 ∧ (civil d).2.1 < 12 := by
  have := march_bounds d
  unfold civil ofMarch; simp only
  split <;> omega

theorem civil_day (d : Int) : 1 ≤ (civil d).2.2 := by
  have := march_bounds d
  unfold civil ofMarch; simp only
  omega

theorem civil_year {d : Int} (h : days 1 0 1 ≤ d) : 1 ≤ (civil d).1 := by
  have h : -719164 ≤ d := h
  unfold civil ofMarch march; simp only
  split
  · -- January and February of the year 1 are the last months of the March year 0
    unfold julianYear; simp only
    split <;> omega
  · rename_i hlt
    unfold cutover at hlt
    unfold gregorianYear; simp only
    split <;> omega

theorem days_civil (d : Int) : days (civil d).1 (civil d).2.1 (civil d).2.2 = d := by
  have hb := march_bounds d
  unfold civil days
  rw [toMarch_ofMarch hb]
  by_cases h : d < cutover
  · have hm : march d = julianYear (d + 719470) := if_pos h
    have hj : julianDay (march d) = d + 719470 := by rw [hm, julianDay_julianYear]
    have hg : gregorianDay (march d) - 719468 < cutover := gregorianDay_lt (by omega) hb
    simp only [hg, if_true]
    omega
  · have hm : march d = gregorianYear (d + 719468) := if_neg h
    have hg : gregorianDay (march d) = d + 719468 := by rw [hm, gregorianDay_gregorianYear]
    have hle : ¬ gregorianDay (march d) - 719468 < cutover := by omega
    simp only [hle, if_false]
    omega

end Civil

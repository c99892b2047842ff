import Mathlib.Algebra.Order.Field.Basic
import Mathlib.Tactic.Linarith
import WarrantyGuard.AddProduct
import WarrantyGuard.Cell
import WarrantyGuard.DatesSound

/-!
# From the form to the cell

The form writes its dates in the medium style and the cell reads them in a
pattern of its own: they survive when the style spells the day in the pattern.
The form accepts any texts that are not blank: the cell shows the product when
both spell days and the purchase is not in the future while the warranty runs.
From day to day the progress grows to 1, which it reaches on the expiry day. The
current day is written and read without its era, so it has to be in the one that
the calendar assumes, as every clock's day is.
-/

namespace WarrantyGuard

open DetailVC

/-! ## The dates that Done writes -/

/-- Both fields are read back as the days their pickers show. -/
def ReadsBack (L : Locale) (vc : AddProductVC) : Prop :=
  L.date vc.purchaseDateTextField = some vc.purchasDatePicker ∧
    L.date vc.expiryDateTextField = some vc.expiryDatePicker

theorem donePressed_reads_back_iff (L₁ L₂ : Locale) (vc : AddProductVC) :
    (ReadsBack L₂ (vc.donePressed L₁) ↔
      Spells L₂ vc.purchasDatePicker (L₁.mediumString vc.purchasDatePicker) ∧
        Spells L₂ vc.expiryDatePicker (L₁.mediumString vc.expiryDatePicker)) ∧
    ∀ d month, WritesPattern L₁ d month → (Spells L₂ d (L₁.mediumString d) ↔
      (L₂.calendar.fields d).era = L₂.calendar.era ∧
      L₂.shortMonthSymbols[(L₂.calendar.fields d).month]? = some month ∧
        (L₂.calendar.fields d).day = (L₁.calendar.fields d).day ∧
        (L₂.calendar.fields d).year = (L₁.calendar.fields d).year) :=
  ⟨and_congr (date_iff L₂) (date_iff L₂), fun _ _ h => spells_of_writesPattern h⟩

theorem donePressed_reads_back_fails :
    ¬ ∀ (L₁ L₂ : Locale) (vc : AddProductVC), ReadsBack L₂ (vc.donePressed L₁) := by
  intro h
  -- 21 December 2021, written and read on a British device
  have := (h en_GB en_GB ⟨"Phone", "", "", "Phones", 18982, 18982, "", 0⟩).1
  exact absurd this (by decide)

/-! ## The products that the form accepts -/

section
variable {Image : Type} {vc : AddProductVC} {p p' : ProductComponents Image} {camera : CameraVC Image}

theorem continueButtonPressed_some (h : (vc.continueButtonPressed Image).2 = some p) :
    vc.validateFields = none ∧ p = ⟨vc.productNameTextField, vc.purchaseDateTextField, vc.expiryDateTextField,
      vc.categoryTextField, none, none, none⟩ := by
  unfold AddProductVC.continueButtonPressed at h
  split at h
  · cases h
  · rename_i hv
    exact ⟨hv, (Option.some.inj h).symm⟩

theorem nextButtonPressed_some (h : camera.nextButtonPressed.2 = some p') (hp : camera.product = some p) :
    ∃ image, camera.warrantyImageView = some image ∧
      p' = ⟨p.productName, p.purchaseDate, p.expiryDate, p.category, some image, none, none⟩ := by
  unfold CameraVC.nextButtonPressed at h
  split at h
  · rename_i image himage
    refine ⟨image, himage, ?_⟩
    rw [← Option.some.inj h, hp]; rfl
  · cases h

end

/-! ## The cell -/

def Displays (cell : Option DetailTableViewCell) : Prop :=
  ∃ cell', cell = some cell' ∧ ∃ q, cell'.progress = some q ∧ 0 ≤ q ∧ q ≤ 1

theorem calculateDurationDate_iff (L : Locale) (now : Int) (purchase expiry : String) (r : Int × Int) :
    calculateDurationDate L now purchase expiry = some r ↔ ∃ n p e : Int,
      L.calendar.fields n = { L.calendar.fields now with era := L.calendar.era } ∧
      Spells L p purchase ∧ Spells L e expiry ∧ r = (e - n, e - p) := by
  unfold calculateDurationDate
  constructor
  · intro h
    obtain ⟨n, hn, h⟩ := Option.bind_eq_some_iff.mp h
    obtain ⟨e, he, h⟩ := Option.bind_eq_some_iff.mp h
    obtain ⟨p, hp, rfl⟩ := Option.map_eq_some_iff.mp h
    exact ⟨n, p, e, (date_string L now).mp hn, (date_iff L).mp hp, (date_iff L).mp he, rfl⟩
  · intro h
    obtain ⟨n, p, e, hn, hp, he, rfl⟩ := h
    rw [(date_string L now).mpr hn, Option.bind_some, (date_iff L).mpr he, Option.bind_some, (date_iff L).mpr hp,
      Option.map_some]

@[simp] theorem showImage_progress (cell : DetailTableViewCell) (url : Option String) :
    (showImage cell url).progress = cell.progress := by
  cases url <;> rfl

theorem remind_eq (n p e : Int) :
    remind (e - n) (e - p) = if e = p then none else some (((n : ℚ) - p) / ((e : ℚ) - p)) := by
  unfold remind
  by_cases h : e = p
  · rw [if_pos (by omega), if_pos h]
  · rw [if_neg (by omega), if_neg h, show e - p - (e - n) = n - p by omega]
    push_cast
    rw [mul_one_div]

theorem remind_between_iff {n p e : Int} (h : n < e) :
    (∃ q, remind (e - n) (e - p) = some q ∧ 0 ≤ q ∧ q ≤ 1) ↔ p ≤ n := by
  have hn : (n : ℚ) < e := Int.cast_lt.mpr h
  rw [remind_eq]
  constructor
  · intro hshare
    obtain ⟨q, hq, h0, h1⟩ := hshare
    by_contra hlt
    have hp : (n : ℚ) < p := Int.cast_lt.mpr (by omega)
    split at hq
    · cases hq
    · rename_i hne
      obtain rfl := Option.some.inj hq
      rcases lt_or_gt_of_ne hne with hep | hep
      · -- the purchase after the expiry: both differences are negative
        have : (e : ℚ) < p := Int.cast_lt.mpr hep
        have hneg : (e : ℚ) - p < 0 := by linarith
        have := (one_lt_div_of_neg hneg).mpr (by linarith : (n : ℚ) - p < e - p)
        linarith
      · have : (p : ℚ) < e := Int.cast_lt.mpr hep
        have := div_neg_of_neg_of_pos (by linarith : (n : ℚ) - p < 0) (by linarith : (0 : ℚ) < e - p)
        linarith
  · intro hle
    have hp : (p : ℚ) ≤ n := Int.cast_le.mpr hle
    have hpos : (0 : ℚ) < e - p := by linarith
    refine ⟨_, if_neg (by omega), div_nonneg (by linarith) hpos.le, ?_⟩
    rw [div_le_one hpos]
    linarith

theorem showDuration_iff (cell : DetailTableViewCell) (n p e : Int) :
    (∃ q, (showDuration cell (e - n) (e - p)).progress = some q ∧ 0 ≤ q ∧ q ≤ 1) ↔ e ≤ n ∨ p ≤ n := by
  unfold showDuration
  by_cases h : e - n > 0
  · rw [if_pos h]
    refine (remind_between_iff (by omega)).trans ⟨.inr, ?_⟩
    rintro (h | h)
    · omega
    · exact h
  · rw [if_neg h]
    exact iff_of_true ⟨1, rfl, by decide, by decide⟩ (.inl (by omega))

theorem cellForRowAt_displays_iff (L : Locale) (now : Int) (cell : DetailTableViewCell) (product : Product)
    {purchase expiry : String} (hp : product.purchaseDate = some purchase)
    (he : product.expiryDate = some expiry) :
    Displays (cellForRowAt L now cell product) ↔ ∃ n p e : Int,
      L.calendar.fields n = { L.calendar.fields now with era := L.calendar.era } ∧
      Spells L p purchase ∧ Spells L e expiry ∧ (e ≤ n ∨ p ≤ n) := by
  simp only [Displays, cellForRowAt, hp, he]
  constructor
  · intro hdisplays
    obtain ⟨cell', h, hq⟩ := hdisplays
    obtain ⟨r, hr, rfl⟩ := Option.map_eq_some_iff.mp h
    obtain ⟨n, p, e, hn, hp, he, rfl⟩ := (calculateDurationDate_iff L now purchase expiry r).mp hr
    rw [showImage_progress] at hq
    exact ⟨n, p, e, hn, hp, he, (showDuration_iff _ n p e).mp hq⟩
  · intro h
    obtain ⟨n, p, e, hn, hp, he, hle⟩ := h
    rw [(calculateDurationDate_iff L now purchase expiry _).mpr ⟨n, p, e, hn, hp, he, rfl⟩]
    refine ⟨_, rfl, ?_⟩
    rw [showImage_progress]
    exact (showDuration_iff _ n p e).mpr hle

/-- A product that the form accepts, saved with any image, notes, URLs and user. -/
theorem accepted_displays_iff {Image : Type} {vc : AddProductVC} {camera : CameraVC Image}
    {p p' : ProductComponents Image} (hform : (vc.continueButtonPressed Image).2 = some p)
    (hproduct : camera.product = some p) (hcamera : camera.nextButtonPressed.2 = some p')
    (notes warrantyUrl productUrl : String) (uid : Option String) (L : Locale) (now : Int)
    (cell : DetailTableViewCell) :
    Displays (cellForRowAt L now cell (Product.ofData (productData p' notes warrantyUrl productUrl uid))) ↔
      ∃ today purchase expiry : Int,
        L.calendar.fields today = { L.calendar.fields now with era := L.calendar.era } ∧
        Spells L purchase vc.purchaseDateTextField ∧ Spells L expiry vc.expiryDateTextField ∧
        (expiry ≤ today ∨ purchase ≤ today) := by
  obtain ⟨-, rfl⟩ := continueButtonPressed_some hform
  obtain ⟨image, -, rfl⟩ := nextButtonPressed_some hcamera hproduct
  rw [ofData_productData]
  exact cellForRowAt_displays_iff L now cell _ rfl rfl

def phoneForm : AddProductVC := ⟨"Phone", "Dec 22, 2021", "Dec 22, 2021", "Phones", 18983, 18983, "", 0⟩

def phoneComponents (warrantyImage : Option String) : ProductComponents String :=
  ⟨some "Phone", some "Dec 22, 2021", some "Dec 22, 2021", some "Phones", warrantyImage, none, none⟩

def phoneCamera : CameraVC String := ⟨some (phoneComponents none), some "receipt", "", 0⟩

theorem accepted_displays_phone :
    Displays (cellForRowAt en_US 18983 ⟨none, none, none, none⟩
      (Product.ofData (productData (phoneComponents (some "receipt")) "" "w" "" (some "u")))) := by
  have hform : (phoneForm.continueButtonPressed String).2 = some (phoneComponents none) := by decide
  have hproduct : phoneCamera.product = some (phoneComponents none) := rfl
  have hcamera : phoneCamera.nextButtonPressed.2 = some (phoneComponents (some "receipt")) := rfl
  have hdate : Spells en_US 18983 "Dec 22, 2021" := (date_iff en_US).mp (by decide)
  exact (accepted_displays_iff hform hproduct hcamera "" "w" "" (some "u") en_US 18983 _).mpr
    ⟨18983, 18983, 18983, by decide, hdate, hdate, .inl (by decide)⟩

theorem accepted_displays_fails :
    ¬ ∀ (Image : Type) (vc : AddProductVC) (camera : CameraVC Image) (p p' : ProductComponents Image),
      (vc.continueButtonPressed Image).2 = some p → camera.product = some p →
      camera.nextButtonPressed.2 = some p' →
      ∀ (notes warrantyUrl productUrl : String) (uid : Option String) (L : Locale) (now : Int)
        (cell : DetailTableViewCell),
        Displays (cellForRowAt L now cell (Product.ofData (productData p' notes warrantyUrl productUrl uid))) := by
  intro h
  -- the day before a purchase that expires the same day: 1 / 0
  obtain ⟨cell, hcell, q, hq, -⟩ := h String phoneForm phoneCamera (phoneComponents none)
      (phoneComponents (some "receipt"))
    (by decide) rfl rfl "" "w" "" (some "u") en_US 18982 ⟨none, none, none, none⟩
  obtain rfl := Option.some.inj hcell
  cases hq

/-! ## The progress from day to day -/

/-- The share of a warranty from `p` to `e` that is over on the day `now`. -/
def share (p e now : Int) : ℚ := if now < e then ((now : ℚ) - p) / ((e : ℚ) - p) else 1

section
variable {p e : Int}

theorem share_lt_one {now : Int} (h : p < e) (hnow : now < e) : share p e now < 1 := by
  have hpe : (p : ℚ) < e := Int.cast_lt.mpr h
  have hne : (now : ℚ) < e := Int.cast_lt.mpr hnow
  rw [share, if_pos hnow, div_lt_one (by linarith)]
  linarith

theorem share_mono {now₁ now₂ : Int} (h : p < e) (hle : now₁ ≤ now₂) : share p e now₁ ≤ share p e now₂ := by
  have hpe : (p : ℚ) < e := Int.cast_lt.mpr h
  have hle' : (now₁ : ℚ) ≤ now₂ := Int.cast_le.mpr hle
  by_cases h₂ : now₂ < e
  · rw [share, share, if_pos (by omega), if_pos h₂]
    apply div_le_div_of_nonneg_right
    · linarith
    · linarith
  · -- the warranty is over on the later day
    have hone : share p e now₂ = 1 := if_neg h₂
    rw [hone]
    by_cases h₁ : now₁ < e
    · exact (share_lt_one h h₁).le
    · rw [share, if_neg h₁]

theorem showDuration_progress (cell : DetailTableViewCell) (now : Int) (h : p < e) :
    (showDuration cell (e - now) (e - p)).progress = some (share p e now) := by
  unfold showDuration share
  by_cases hnow : now < e
  · rw [if_pos (by omega), if_pos hnow]
    exact (remind_eq now p e).trans (if_neg (by omega))
  · rw [if_neg (by omega), if_neg hnow]

end

structure ShowsDay (cell : DetailTableViewCell) (p e now : Int) : Prop where
  running : now < e → 0 < e - now ∧ cell.daysLeftLabel = some (toString (e - now) ++ " days left") ∧
    ∃ q, cell.progress = some q ∧ q = ((now : ℚ) - p) / ((e : ℚ) - p) ∧ q < 1
  expired : e ≤ now → cell.daysLeftLabel = some "Expired" ∧ cell.progress = some 1

@[simp] theorem showImage_daysLeftLabel (cell : DetailTableViewCell) (url : Option String) :
    (showImage cell url).daysLeftLabel = cell.daysLeftLabel := by
  cases url <;> rfl

section
variable {p e now : Int} (h : p < e)
include h

theorem showDuration_day (cell : DetailTableViewCell) (url : Option String) :
    ShowsDay (showImage (showDuration cell (e - now) (e - p)) url) p e now := by
  have hprogress := showDuration_progress cell now h
  constructor
  · intro hnow
    have hleft : e - now > 0 := by omega
    refine ⟨hleft, ?_, share p e now, ?_, if_pos hnow, share_lt_one h hnow⟩
    · rw [showImage_daysLeftLabel, showDuration, if_pos hleft]
    · rw [showImage_progress, hprogress]
  · intro hnow
    refine ⟨?_, ?_⟩
    · rw [showImage_daysLeftLabel, showDuration, if_neg (by omega)]
    · rw [showImage_progress, hprogress, share, if_neg (by omega)]

theorem cellForRowAt_day {L : Locale} {product : Product} {purchase expiry : String}
    (hp : product.purchaseDate = some purchase) (he : product.expiryDate = some expiry)
    (hpurchase : L.date purchase = some p) (hexpiry : L.date expiry = some e)
    (hera : (L.calendar.fields now).era = L.calendar.era) (cell : DetailTableViewCell) :
    ∃ cell', cellForRowAt L now cell product = some cell' ∧ ShowsDay cell' p e now ∧
      cell'.progress = some (share p e now) := by
  have hnow : L.date (L.string now) = some now := (date_string L now).mpr (by rw [← hera])
  simp only [cellForRowAt, hp, he, calculateDurationDate, hnow, hpurchase, hexpiry, Option.bind_some,
    Option.map_some]
  refine ⟨_, rfl, showDuration_day h _ _, ?_⟩
  rw [showImage_progress]
  exact showDuration_progress _ now h

end

theorem progress_evolves {L : Locale} {product : Product} {purchase expiry : String} {p e now₁ now₂ : Int}
    (hp : product.purchaseDate = some purchase) (he : product.expiryDate = some expiry)
    (hpurchase : L.date purchase = some p) (hexpiry : L.date expiry = some e) (h : p < e) (hle : now₁ ≤ now₂)
    (hera₁ : (L.calendar.fields now₁).era = L.calendar.era) (hera₂ : (L.calendar.fields now₂).era = L.calendar.era)
    (cell₁ cell₂ : DetailTableViewCell) : ∃ cell₁' cell₂' q₁ q₂,
      cellForRowAt L now₁ cell₁ product = some cell₁' ∧ cellForRowAt L now₂ cell₂ product = some cell₂' ∧
      ShowsDay cell₁' p e now₁ ∧ ShowsDay cell₂' p e now₂ ∧
      cell₁'.progress = some q₁ ∧ cell₂'.progress = some q₂ ∧ q₁ ≤ q₂ := by
  obtain ⟨cell₁', h₁, hday₁, hq₁⟩ := cellForRowAt_day h hp he hpurchase hexpiry hera₁ cell₁
  obtain ⟨cell₂', h₂, hday₂, hq₂⟩ := cellForRowAt_day h hp he hpurchase hexpiry hera₂ cell₂
  exact ⟨cell₁', cell₂', _, _, h₁, h₂, hday₁, hday₂, hq₁, hq₂, share_mono h hle⟩

def phoneProduct : Product :=
  ⟨some "Phone", some "Dec 21, 2021", some "Dec 21, 2022", some "Phones", some "w", some "", some ""⟩

theorem progress_evolves_phone : ∃ cell₁' cell₂' q₁ q₂,
    cellForRowAt en_US 18982 ⟨none, none, none, none⟩ phoneProduct = some cell₁' ∧
    cellForRowAt en_US 19347 ⟨none, none, none, none⟩ phoneProduct = some cell₂' ∧
    ShowsDay cell₁' 18982 19347 18982 ∧ ShowsDay cell₂' 18982 19347 19347 ∧
    cell₁'.progress = some q₁ ∧ cell₂'.progress = some q₂ ∧ q₁ ≤ q₂ :=
  progress_evolves (L := en_US) rfl rfl (by decide) (by decide) (by decide) (by decide)
    (gregorian_era (by decide)) (gregorian_era (by decide)) _ _

end WarrantyGuard

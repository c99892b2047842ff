import WarrantyGuard.DateForm

/-!
# The dates that are handed on

Done writes both fields, so each shows what its picker showed at the last Done of
either. It was confirmed itself only if the day is written like that of its own
last Done.
-/

namespace WarrantyGuard

open DateForm

section
variable {L : Locale} {s s' : DateForm}

theorem donePressed_eq_confirm_iff (vc : AddProductVC) (field : DateField) :
    vc.donePressed L = vc.confirm L field ↔
    vc.dateText field.other = L.mediumString (vc.datePicker field.other) := by
  cases vc
  cases field with
  | purchase =>
    simp [AddProductVC.donePressed, AddProductVC.confirm, AddProductVC.dateText, AddProductVC.datePicker,
      DateField.other, eq_comm]
  | expiry =>
    simp [AddProductVC.donePressed, AddProductVC.confirm, AddProductVC.dateText, AddProductVC.datePicker,
      DateField.other, eq_comm]

theorem continueButtonPressed_dateText (Image : Type) (vc : AddProductVC) (field : DateField) :
    (vc.continueButtonPressed Image).1.dateText field = vc.dateText field := by
  unfold AddProductVC.continueButtonPressed
  cases field with
  | purchase => split <;> rfl
  | expiry => split <;> rfl

theorem step_dateText {e : DateEvent} (h : s.step L e = some s') (field : DateField) :
    s'.vc.dateText field = ((doneShows field s e).getLast?.map L.mediumString).getD (s.vc.dateText field) := by
  cases e with
  | productNameChanged | categoryChanged => cases h; cases field <;> rfl
  | editingBegan | editingEnded => cases h; rfl
  | datePicked picked d => cases h; cases picked <;> cases field <;> rfl
  | donePressed =>
    obtain ⟨edited, -, rfl⟩ := Option.map_eq_some_iff.mp h
    cases field <;> rfl
  | continueButtonPressed => cases h; exact continueButtonPressed_dateText Unit s.vc field

theorem dateText_run {es : List DateEvent} (h : Runs.run (DateForm.step L) s es = some s') (field : DateField) :
    s'.vc.dateText field = ((lastDone L field s es).map L.mediumString).getD (s.vc.dateText field) := by
  refine Runs.run_history (I := fun s' es => s'.vc.dateText field =
    ((lastDone L field s es).map L.mediumString).getD (s.vc.dateText field)) rfl ?_ h
  intro t es e t' hes ih ht
  rw [step_dateText ht field, ih, lastDone, lastDone, Runs.log_snoc _ hes, List.getLast?_append]
  cases (doneShows field t e).getLast? <;> rfl

theorem dateText_of_validateFields {vc : AddProductVC} (h : vc.validateFields = none) (field : DateField) :
    vc.dateText field ≠ "" := by
  intro hempty
  have hblank : trimmingCharacters (vc.dateText field) = "" := by rw [hempty]; decide
  cases field with
  | purchase =>
    simp [AddProductVC.validateFields, show trimmingCharacters vc.purchaseDateTextField = "" from hblank] at h
  | expiry =>
    simp [AddProductVC.validateFields, show trimmingCharacters vc.expiryDateTextField = "" from hblank] at h

end

/-- Done takes the date of the edited field alone; Continue hands on, if it does, the
dates of each field's own last Done and otherwise reports a missing field. -/
def Faithful (L : Locale) (Image : Type) (start : DateForm) (pre : List DateEvent) (s : DateForm) :
    DateEvent → Prop
  | .donePressed => ∀ field, s.editing = some field → s.vc.donePressed L = s.vc.confirm L field
  | .continueButtonPressed =>
    (∀ p, (s.vc.continueButtonPressed Image).2 = some p → ∀ field, ∃ d, lastConfirmed L field start pre = some d ∧
      p.date field = some (L.mediumString d)) ∧
    ((s.vc.continueButtonPressed Image).2 = none →
      (s.vc.continueButtonPressed Image).1 = s.vc.showError "Please fill in all fields")
  | _ => True

/-- At Done the other field already shows its picker's day; at a Continue that the check
accepts, each field's own last Done wrote what the last Done of either did. -/
def Undisturbed (L : Locale) (start : DateForm) (pre : List DateEvent) (s : DateForm) : DateEvent → Prop
  | .donePressed => ∀ field, s.editing = some field →
    s.vc.dateText field.other = L.mediumString (s.vc.datePicker field.other)
  | .continueButtonPressed => s.vc.validateFields = none →
    ∀ field, ∃ d d', lastConfirmed L field start pre = some d ∧
    lastDone L field start pre = some d' ∧ L.mediumString d = L.mediumString d'
  | _ => True

section
variable {L : Locale} {s : DateForm} {purchase expiry : Int} {pre : List DateEvent}

theorem continue_faithful_iff (Image : Type)
    (h : Runs.run (DateForm.step L) (viewDidLoad purchase expiry) pre = some s) :
    Faithful L Image (viewDidLoad purchase expiry) pre s .continueButtonPressed ↔
      Undisturbed L (viewDidLoad purchase expiry) pre s .continueButtonPressed := by
  unfold Faithful Undisturbed
  simp only [AddProductVC.continueButtonPressed]
  cases hv : s.vc.validateFields with
  | some error =>
    refine iff_of_true ⟨nofun, fun _ => ?_⟩ nofun
    -- the check has one message
    unfold AddProductVC.validateFields at hv
    split at hv
    · rw [← Option.some.inj hv]
    · cases hv
  | none =>
    have htext : ∀ field, ∃ d', lastDone L field (viewDidLoad purchase expiry) pre = some d' ∧
        s.vc.dateText field = L.mediumString d' := by
      intro field
      have hrun := dateText_run h field
      cases hd : lastDone L field (viewDidLoad purchase expiry) pre with
      | some d' => exact ⟨d', rfl, by rw [hrun, hd]; rfl⟩
      | none =>
        rw [hd] at hrun
        exact absurd (hrun.trans (by cases field <;> rfl)) (dateText_of_validateFields hv field)
    constructor
    · intro hf _ field
      obtain ⟨d, hd, hdate⟩ := hf.1 _ rfl field
      obtain ⟨d', hd', hshown⟩ := htext field
      refine ⟨d, d', hd, hd', ?_⟩
      rw [← hshown]
      cases field <;> exact (Option.some.inj hdate).symm
    · intro hu
      refine ⟨fun p hp field => ?_, nofun⟩
      obtain rfl := Option.some.inj hp
      obtain ⟨d, d', hd, hd', hwritten⟩ := hu rfl field
      obtain ⟨d'', hd'', hshown⟩ := htext field
      cases hd'.symm.trans hd''
      refine ⟨d, hd, ?_⟩
      rw [hwritten, ← hshown]
      cases field <;> rfl

theorem faithful_iff (Image : Type) (h : Runs.run (DateForm.step L) (viewDidLoad purchase expiry) pre = some s)
    (e : DateEvent) : Faithful L Image (viewDidLoad purchase expiry) pre s e ↔
      Undisturbed L (viewDidLoad purchase expiry) pre s e := by
  cases e with
  | donePressed => exact forall_congr' fun field => imp_congr_right fun _ => donePressed_eq_confirm_iff s.vc field
  | continueButtonPressed => exact continue_faithful_iff Image h
  | _ => exact Iff.rfl

end

theorem dates_confirmed_iff (L : Locale) (Image : Type) (purchase expiry : Int) (es : List DateEvent) :
    (∀ pre e post s, es = pre ++ e :: post →
      Runs.run (DateForm.step L) (viewDidLoad purchase expiry) pre = some s →
      Faithful L Image (viewDidLoad purchase expiry) pre s e) ↔
    ∀ pre e post s, es = pre ++ e :: post → Runs.run (DateForm.step L) (viewDidLoad purchase expiry) pre = some s →
      Undisturbed L (viewDidLoad purchase expiry) pre s e := by
  constructor
  · intro h pre e post s he hr
    exact (faithful_iff Image hr e).mp (h pre e post s he hr)
  · intro h pre e post s he hr
    exact (faithful_iff Image hr e).mpr (h pre e post s he hr)

theorem log_doneShows {es : List DateEvent} (h : .donePressed ∉ es) (L : Locale) (field : DateField)
    (s : DateForm) :
    Runs.log (DateForm.step L) (doneShows field) s es = [] := by
  induction es generalizing s with
  | nil => rfl
  | cons e es ih =>
    rw [List.mem_cons, not_or] at h
    have he : doneShows field s e = [] := by
      cases e with
      | donePressed => exact absurd rfl h.1
      | _ => rfl
    rw [Runs.log, he, List.nil_append]
    cases s.step L e with
    | none => rfl
    | some s' => exact ih h.2 s'

/-- The first Done already writes a date that was not confirmed. -/
theorem undisturbed_not_done {L : Locale} (hL : ∀ d, L.mediumString d ≠ "") {purchase expiry : Int}
    {es : List DateEvent} {s' : DateForm}
    (hrun : Runs.run (DateForm.step L) (viewDidLoad purchase expiry) es = some s')
    (h : ∀ pre e post s, es = pre ++ e :: post →
      Runs.run (DateForm.step L) (viewDidLoad purchase expiry) pre = some s →
      Undisturbed L (viewDidLoad purchase expiry) pre s e) : .donePressed ∉ es := by
  intro hdone
  obtain ⟨pre, post, rfl, hfirst⟩ := List.eq_append_cons_of_mem hdone
  rw [Runs.run_append] at hrun
  obtain ⟨s, hs, hrun⟩ := Option.bind_eq_some_iff.mp hrun
  obtain ⟨t, ht, -⟩ := Option.bind_eq_some_iff.mp hrun
  obtain ⟨field, hfield, -⟩ := Option.map_eq_some_iff.mp ht
  have hempty : s.vc.dateText field.other = "" := by
    rw [dateText_run hs, lastDone, log_doneShows hfirst]
    cases field <;> rfl
  exact hL _ ((h pre .donePressed post s rfl hs field hfield).symm.trans hempty)

theorem dates_confirmed_fails :
    ¬ ∀ (L : Locale) (Image : Type) (purchase expiry : Int) (es pre post : List DateEvent) (e : DateEvent)
      (s : DateForm),
      es = pre ++ e :: post → Runs.run (DateForm.step L) (viewDidLoad purchase expiry) pre = some s →
      Faithful L Image (viewDidLoad purchase expiry) pre s e := by
  intro h
  -- only the purchase date is confirmed
  let pre : List DateEvent := [.productNameChanged "Phone", .categoryChanged "Phones", .editingBegan .purchase,
    .datePicked .purchase 18982, .donePressed]
  have hf := h en_US Unit 18983 18983 (pre ++ [.continueButtonPressed]) pre [] .continueButtonPressed _ rfl rfl
  obtain ⟨d, hd, -⟩ := hf.1 _ rfl .expiry
  cases hd

end WarrantyGuard

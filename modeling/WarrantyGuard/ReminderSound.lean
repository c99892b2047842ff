import WarrantyGuard.CellSound
import WarrantyGuard.Reminder

/-!
# The reminder and the product

The requests of a form are those of the blocks that have run, for the days its
picker showed then; the product that Continue hands on has the day of the last
Done. They agree if the switch has been changed and the blocks have run so, and
nothing else makes them agree.
-/

namespace WarrantyGuard

open ReminderForm

section
variable {L : Locale} {s s' : ReminderForm} {es : List ReminderEvent}

theorem isFlipped_cons_switch : isFlipped (.switchDidChanged :: es) = !isFlipped es := by
  unfold isFlipped
  rw [List.count_cons_self]
  by_cases h : es.count .switchDidChanged % 2 = 1
  · simp [h]; omega
  · simp [h]; omega

theorem isFlipped_cons_ne {e : ReminderEvent} (h : e ≠ .switchDidChanged) :
    isFlipped (e :: es) = isFlipped es := by
  unfold isFlipped
  rw [List.count_cons_of_ne h]

/-- What a run makes of the switch, the requests and the expiry text. -/
structure After (L : Locale) (s : ReminderForm) (es : List ReminderEvent) (s' : ReminderForm) : Prop where
  isOn : s'.isOn = (s.isOn ^^ isFlipped es)
  requests : s'.requests = s.requests ++ (blockDays s.vc.expiryDatePicker es).map (weekBefore L)
  expiryDateTextField : s'.vc.expiryDateTextField =
    ((doneDay s.vc.expiryDatePicker es).map L.mediumString).getD s.vc.expiryDateTextField

theorem continueButtonPressed_keeps (Image : Type) (vc : AddProductVC) :
    (vc.continueButtonPressed Image).1.expiryDatePicker = vc.expiryDatePicker ∧
      (vc.continueButtonPressed Image).1.expiryDateTextField = vc.expiryDateTextField := by
  unfold AddProductVC.continueButtonPressed
  split
  · exact ⟨rfl, rfl⟩
  · exact ⟨rfl, rfl⟩

theorem after_cons {t : ReminderForm} {e : ReminderEvent} (ht : s.step L e = some t) (h : After L t es s') :
    After L s (e :: es) s' := by
  obtain ⟨hon, hrequests, htext⟩ := h
  cases e with
  | productNameChanged | categoryChanged | purchasePicked | expiryPicked =>
    cases ht
    exact ⟨by rw [hon, isFlipped_cons_ne (by simp)], hrequests, htext⟩
  | switchDidChanged =>
    obtain rfl := Option.some.inj ht
    unfold ReminderForm.switchDidChanged at hon hrequests htext
    refine ⟨?_, ?_, ?_⟩
    · rw [hon, isFlipped_cons_switch]
      cases s.isOn <;> simp
    · rw [hrequests]
      cases s.isOn <;> rfl
    · rw [htext]
      cases s.isOn <;> rfl
  | notificationSettings authorized =>
    simp only [ReminderForm.step, ReminderForm.notificationSettings] at ht
    split at ht
    · cases ht
    · cases authorized with
      | true =>
        cases ht
        refine ⟨by rw [hon, isFlipped_cons_ne (by simp)], ?_, htext⟩
        rw [hrequests, List.append_assoc]; rfl
      | false => cases ht; exact ⟨by rw [hon, isFlipped_cons_ne (by simp)], hrequests, htext⟩
  | donePressed =>
    cases ht
    refine ⟨by rw [hon, isFlipped_cons_ne (by simp)], hrequests, ?_⟩
    simp only [AddProductVC.donePressed] at htext
    rw [htext, doneDay]
    cases doneDay s.vc.expiryDatePicker es <;> rfl
  | continueButtonPressed =>
    cases ht
    obtain ⟨hpicker, hfield⟩ := continueButtonPressed_keeps Unit s.vc
    refine ⟨by rw [hon, isFlipped_cons_ne (by simp)], ?_, ?_⟩
    · rw [hrequests, hpicker]; rfl
    · rw [htext, hpicker, hfield]; rfl

theorem after_run (h : Runs.run (ReminderForm.step L) s es = some s') : After L s es s' := by
  induction es generalizing s with
  | nil =>
    cases h
    exact ⟨by simp [isFlipped], by simp [blockDays], rfl⟩
  | cons e es ih =>
    obtain ⟨t, ht, h⟩ := Option.bind_eq_some_iff.mp h
    exact after_cons ht (ih h)

/-- What Continue hands on, if it does, has an expiry date a week after the one
request that is pending, or none is pending and the switch is off. -/
def Matches (L : Locale) (Image : Type) (s : ReminderForm) : Prop :=
  ∀ p, (s.vc.continueButtonPressed Image).2 = some p →
    if s.isOn then ∃ expiry, p.expiryDate = some (L.mediumString expiry) ∧ s.requests = [weekBefore L expiry]
    else s.requests = []

/-- The switch is on and one block has run, a week before a day that is written like
that of the last Done; or the switch is off and none has run. -/
def Agrees (L : Locale) (d : Int) (es : List ReminderEvent) : Prop :=
  if isFlipped es then ∃ day picked expiry, blockDays d es = [day] ∧ doneDay d es = some picked ∧
    L.mediumString expiry = L.mediumString picked ∧ weekBefore L expiry = weekBefore L day
  else blockDays d es = []

theorem validateFields_expiryDate {vc : AddProductVC} (h : vc.validateFields = none) :
    vc.expiryDateTextField ≠ "" := by
  intro hempty
  simp [AddProductVC.validateFields, hempty, show trimmingCharacters "" = "" by decide] at h

theorem matches_iff {Image : Type} {purchase expiry : Int}
    (h : Runs.run (ReminderForm.step L) (viewDidLoad purchase expiry) es = some s)
    (hv : s.vc.validateFields = none) :
    Matches L Image s ↔ Agrees L expiry es := by
  obtain ⟨hon, hrequests, htext⟩ := after_run h
  have hon : s.isOn = isFlipped es := by rw [hon]; exact Bool.false_xor _
  have hrequests : s.requests = (blockDays expiry es).map (weekBefore L) := hrequests
  obtain ⟨picked, hpicked⟩ : ∃ picked, doneDay expiry es = some picked := by
    refine Option.ne_none_iff_exists'.mp fun hnone => validateFields_expiryDate hv ?_
    rw [htext]
    show ((doneDay expiry es).map L.mediumString).getD "" = ""
    rw [hnone]; rfl
  have htext : s.vc.expiryDateTextField = L.mediumString picked := by
    rw [htext]
    show ((doneDay expiry es).map L.mediumString).getD "" = _
    rw [hpicked]; rfl
  have hmatches : Matches L Image s ↔
      if s.isOn then ∃ expiry, some s.vc.expiryDateTextField = some (L.mediumString expiry) ∧
        s.requests = [weekBefore L expiry]
      else s.requests = [] := by
    simp [Matches, AddProductVC.continueButtonPressed, hv]
  rw [hmatches, hon, Agrees]
  by_cases hf : isFlipped es = true
  · rw [if_pos hf, if_pos hf]
    constructor
    · intro h
      obtain ⟨expiry', htext', hone⟩ := h
      obtain ⟨day, hday, hweek⟩ := List.map_eq_singleton_iff.mp (hrequests.symm.trans hone)
      exact ⟨day, picked, expiry', hday, hpicked, (Option.some.inj htext').symm.trans htext, hweek.symm⟩
    · intro h
      obtain ⟨day, picked', expiry', hday, hpicked', htext', hweek⟩ := h
      cases hpicked.symm.trans hpicked'
      refine ⟨expiry', by rw [htext, htext'], ?_⟩
      rw [hrequests, hday, hweek]; rfl
  · rw [if_neg hf, if_neg hf, hrequests]
    exact List.map_eq_nil_iff

theorem reminder_matches_iff (L : Locale) (Image : Type) (purchase expiry : Int) (es : List ReminderEvent) :
    Runs.Along (ReminderForm.step L) (fun s e => e = .continueButtonPressed → Matches L Image s)
        (viewDidLoad purchase expiry) es ↔
      ∀ pre post s, es = pre ++ .continueButtonPressed :: post →
        Runs.run (ReminderForm.step L) (viewDidLoad purchase expiry) pre = some s → s.vc.validateFields = none →
        Agrees L expiry pre := by
  rw [Runs.along_iff]
  constructor
  · intro h pre post s he hr hv
    exact (matches_iff hr hv).mp (h pre _ post s _ he hr rfl rfl)
  · intro h pre e post s s' he hr _ hcontinue
    subst hcontinue
    cases hv : s.vc.validateFields with
    | none => exact (matches_iff hr hv).mpr (h pre post s he hr hv)
    | some error =>
      -- Continue only shows the error
      intro p hp
      simp [AddProductVC.continueButtonPressed, hv] at hp

end

theorem reminder_matches_fails :
    ¬ ∀ (L : Locale) (Image : Type) (purchase expiry : Int) (es : List ReminderEvent),
      Runs.Along (ReminderForm.step L) (fun s e => e = .continueButtonPressed → Matches L Image s)
        (viewDidLoad purchase expiry) es := by
  intro h
  -- the switch is turned on and off again
  let pre : List ReminderEvent := [.productNameChanged "Phone", .categoryChanged "Phones", .switchDidChanged,
    .notificationSettings true, .switchDidChanged, .donePressed]
  have hm := Runs.along_iff.mp (h en_US Unit 18982 19347 (pre ++ [.continueButtonPressed]))
    pre .continueButtonPressed [] _ _ rfl rfl rfl rfl _ rfl
  cases hm

end WarrantyGuard

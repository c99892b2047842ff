import WarrantyGuard.CellSound
import WarrantyGuard.DateFormSound
import WarrantyGuard.Form
import WarrantyGuard.SharedSound

/-!
# What the whole form hands on

Seen through its dates, its reminder or its picker, a run of the form is a run of
that part by itself. So Continue hands on the name typed last, the days of the
last Done and the name of the row that the picker wrote last, and it does so
exactly if all of these are there and none is blank. An error stays in sight once
one has been shown.
-/

namespace WarrantyGuard

open AddForm

section
variable {L : Locale} {s s' : AddForm} {categories : List Category}

/-! ## The picker's part -/

theorem nameOf_some {row : Nat} {category : Category} (h : categories[row]? = some category) :
    category.categoryName.getD "" = nameOf categories row := by
  simp [nameOf, h]

theorem picker_step {e : FormEvent} (h : s.step L (categories, e) = some s') :
    asPicker (categories, e) = [] ∧ s'.picker = s.picker ∨
      ∃ pe vc, asPicker (categories, e) = [pe] ∧ s.picker.step categories pe = some vc ∧ s' = s.withPicker vc := by
  cases e with
  | showPicker => cases h; exact .inr ⟨.appear, _, rfl, rfl, rfl⟩
  | titleForRow row =>
    obtain ⟨-, h⟩ := Option.ite_none_right_eq_some.mp h
    obtain ⟨r, hr, rfl⟩ := Option.map_eq_some_iff.mp h
    exact .inr ⟨.titleForRow row, r.1, rfl, by rw [CategoryPicker.step, hr]; rfl, rfl⟩
  | didSelectRow row =>
    obtain ⟨-, h⟩ := Option.ite_none_right_eq_some.mp h
    obtain ⟨vc, hvc, rfl⟩ := Option.map_eq_some_iff.mp h
    exact .inr ⟨.didSelectRow row, vc, rfl, hvc, rfl⟩
  | closePickerView =>
    obtain ⟨-, h⟩ := Option.ite_none_right_eq_some.mp h
    obtain ⟨vc, hvc, rfl⟩ := Option.map_eq_some_iff.mp h
    exact .inr ⟨.closePickerView, vc, rfl, hvc, rfl⟩
  | datePicked field d => cases h; cases field <;> exact .inl ⟨rfl, rfl⟩
  | donePressed => obtain ⟨field, -, rfl⟩ := Option.map_eq_some_iff.mp h; exact .inl ⟨rfl, rfl⟩
  | notificationSettings authorized => obtain ⟨r, -, rfl⟩ := Option.map_eq_some_iff.mp h; exact .inl ⟨rfl, rfl⟩
  | continueButtonPressed =>
    cases h
    refine .inl ⟨rfl, ?_⟩
    simp only [picker, AddProductVC.continueButtonPressed]
    split <;> rfl
  | productNameChanged | editingBegan | editingEnded | switchDidChanged => cases h; exact .inl ⟨rfl, rfl⟩

theorem picker_chosen {pe : PickerEvent} {vc : CategoryPicker} {e : FormEvent}
    (hpe : asPicker (categories, e) = [pe]) (h : s.picker.step categories pe = some vc) :
    vc.categoryTextField = ((chosen s (categories, e)).getLast?).getD s.vc.categoryTextField := by
  cases e with
  | showPicker => cases hpe; cases h; rfl
  | titleForRow row =>
    cases hpe
    obtain ⟨r, hr, rfl⟩ := Option.map_eq_some_iff.mp h
    obtain ⟨category, -, rfl⟩ := Option.map_eq_some_iff.mp hr
    rfl
  | didSelectRow row =>
    cases hpe
    obtain ⟨category, hcategory, rfl⟩ := Option.map_eq_some_iff.mp h
    exact nameOf_some hcategory
  | closePickerView =>
    cases hpe
    obtain ⟨category, hcategory, rfl⟩ := Option.map_eq_some_iff.mp h
    exact nameOf_some hcategory
  | _ => cases hpe

/-! ## The dates and the reminder -/

theorem didSelectRow_some {row : Nat} (h : s.step L (categories, .didSelectRow row) = some s') :
    s' = s.withPicker { s.picker with categoryTextField := nameOf categories row } := by
  obtain ⟨-, h⟩ := Option.ite_none_right_eq_some.mp h
  obtain ⟨vc, hvc, rfl⟩ := Option.map_eq_some_iff.mp h
  obtain ⟨category, hcategory, rfl⟩ := Option.map_eq_some_iff.mp hvc
  rw [nameOf_some hcategory]

theorem closePickerView_some (h : s.step L (categories, .closePickerView) = some s') :
    s' = s.withPicker { s.picker with categoryTextField := nameOf categories s.currentIndex } := by
  obtain ⟨-, h⟩ := Option.ite_none_right_eq_some.mp h
  obtain ⟨vc, hvc, rfl⟩ := Option.map_eq_some_iff.mp h
  obtain ⟨category, hcategory, rfl⟩ := Option.map_eq_some_iff.mp hvc
  rw [nameOf_some hcategory]
  rfl

theorem titleForRow_some {row : Nat} (h : s.step L (categories, .titleForRow row) = some s') :
    s' = s.withPicker { s.picker with currentIndex := row } := by
  obtain ⟨-, h⟩ := Option.ite_none_right_eq_some.mp h
  obtain ⟨r, hr, rfl⟩ := Option.map_eq_some_iff.mp h
  obtain ⟨category, -, rfl⟩ := Option.map_eq_some_iff.mp hr
  rfl

theorem dates_step {e : FormMoment} (h : s.step L e = some s') :
    Runs.run (DateForm.step L) s.dates (asDate s e) = some s'.dates := by
  obtain ⟨categories, e⟩ := e
  cases e with
  | donePressed =>
    obtain ⟨field, hf, rfl⟩ := Option.map_eq_some_iff.mp h
    simp only [asDate, Runs.run, DateForm.step, dates, hf, Option.map_some, Option.bind_some]
  | notificationSettings authorized => obtain ⟨r, -, rfl⟩ := Option.map_eq_some_iff.mp h; rfl
  | titleForRow row => rw [titleForRow_some h]; rfl
  | didSelectRow row => rw [didSelectRow_some h]; rfl
  | closePickerView => rw [closePickerView_some h]; rfl
  | _ => cases h; rfl

theorem reminder_step {e : FormMoment} (h : s.step L e = some s') :
    Runs.run (ReminderForm.step L) s.reminder (asReminder s e) = some s'.reminder := by
  obtain ⟨categories, e⟩ := e
  cases e with
  | datePicked field d => cases h; cases field <;> rfl
  | donePressed => obtain ⟨field, -, rfl⟩ := Option.map_eq_some_iff.mp h; rfl
  | switchDidChanged =>
    cases h
    by_cases hon : s.isOn <;>
      simp [asReminder, Runs.run, ReminderForm.step, ReminderForm.switchDidChanged, reminder, hon]
  | notificationSettings authorized =>
    obtain ⟨r, hr, rfl⟩ := Option.map_eq_some_iff.mp h
    have hvc : r.vc = s.vc ∧ r.isOn = s.isOn := by
      unfold ReminderForm.notificationSettings at hr
      split at hr
      · cases hr
      · split at hr <;> cases hr <;> exact ⟨rfl, rfl⟩
    obtain ⟨vc, isOn, settings, requests⟩ := r
    obtain ⟨rfl, rfl⟩ := hvc
    exact Runs.run_cons_some (ReminderForm.step L) hr
  | titleForRow row => rw [titleForRow_some h]; rfl
  | didSelectRow row => rw [didSelectRow_some h]; rfl
  | closePickerView => rw [closePickerView_some h]; rfl
  | _ => cases h; rfl

/-- **The parts of the form.** A run of the form is one of its dates, one of its
reminder and, while the list of categories stays, one of its picker. -/
theorem form_parts (L : Locale) (s : AddForm) (es : List FormMoment) {s' : AddForm}
    (h : Runs.run (AddForm.step L) s es = some s') :
    Runs.run (DateForm.step L) s.dates (Runs.log (AddForm.step L) asDate s es) = some s'.dates ∧
    Runs.run (ReminderForm.step L) s.reminder (Runs.log (AddForm.step L) asReminder s es) = some s'.reminder ∧
    ∀ categories, (∀ e ∈ es, e.1 = categories) →
      Runs.run (CategoryPicker.step categories) s.picker (es.flatMap asPicker) = some s'.picker := by
  refine ⟨?_, ?_, fun categories hes => ?_⟩
  · exact Runs.run_log (I := fun _ => True) (fun _ _ _ _ _ => trivial) (fun _ _ _ _ h => dates_step h) trivial h
  · exact Runs.run_log (I := fun _ => True) (fun _ _ _ _ _ => trivial) (fun _ _ _ _ h => reminder_step h) trivial h
  · induction es generalizing s with
    | nil => cases h; rfl
    | cons e es ih =>
      obtain ⟨categories', e⟩ := e
      obtain ⟨rfl, hrest⟩ := List.forall_mem_cons.mp hes
      obtain ⟨t, ht, h'⟩ := Option.bind_eq_some_iff.mp h
      rw [List.flatMap_cons, Runs.run_append]
      rcases picker_step ht with ⟨hp, hsame⟩ | ⟨pe, vc, hp, hvc, rfl⟩
      · rw [hp, Runs.run, Option.bind_some, ← hsame]
        exact ih _ h' hrest
      · rw [hp, Runs.run_cons_some _ hvc, Runs.run, Option.bind_some]
        exact ih _ h' hrest

end

def phones : List Category := [⟨some "1", some "Phones"⟩]

/-- Continue is refused; the form is filled, with the reminder switched on. -/
def phoneMoments : List FormMoment :=
  [(phones, .continueButtonPressed), (phones, .productNameChanged "Phone"), (phones, .switchDidChanged),
    (phones, .notificationSettings true), (phones, .showPicker), (phones, .titleForRow 0),
    (phones, .closePickerView), (phones, .editingBegan .purchase), (phones, .datePicked .purchase 18982),
    (phones, .donePressed)]

theorem form_parts_phone : ∃ s', Runs.run (AddForm.step en_US) (viewDidLoad 18983 19347) phoneMoments = some s' ∧
    Runs.run (DateForm.step en_US) (viewDidLoad 18983 19347).dates
      (Runs.log (AddForm.step en_US) asDate (viewDidLoad 18983 19347) phoneMoments) = some s'.dates ∧
    Runs.run (ReminderForm.step en_US) (viewDidLoad 18983 19347).reminder
      (Runs.log (AddForm.step en_US) asReminder (viewDidLoad 18983 19347) phoneMoments) = some s'.reminder ∧
    Runs.run (CategoryPicker.step phones) (viewDidLoad 18983 19347).picker (phoneMoments.flatMap asPicker) =
      some s'.picker := by
  obtain ⟨s', hs⟩ : ∃ s', Runs.run (AddForm.step en_US) (viewDidLoad 18983 19347) phoneMoments = some s' :=
    ⟨_, rfl⟩
  obtain ⟨hdates, hreminder, hpicker⟩ := form_parts en_US (viewDidLoad 18983 19347) phoneMoments hs
  exact ⟨s', hs, hdates, hreminder, hpicker phones (by simp [phoneMoments])⟩

/-! ## What Continue hands on -/

theorem not_filled_empty : ¬ Filled "" := by decide

theorem filled_getD {o : Option String} {text : String} (h : o.getD "" = text) (hf : Filled text) :
    o = some text := by
  cases o with
  | none => cases h; exact absurd hf not_filled_empty
  | some text' => rw [← h]; rfl

theorem validateFields_iff (vc : AddProductVC) : vc.validateFields = none ↔ Filled vc.productNameTextField ∧
    Filled vc.purchaseDateTextField ∧ Filled vc.expiryDateTextField ∧ Filled vc.categoryTextField := by
  simp only [AddProductVC.validateFields, Filled, ite_eq_right_iff, reduceCtorEq, imp_false, not_or]

theorem continueButtonPressed_iff {Image : Type} {vc : AddProductVC} {p : ProductComponents Image} :
    (vc.continueButtonPressed Image).2 = some p ↔ vc.validateFields = none ∧
      p = ⟨vc.productNameTextField, vc.purchaseDateTextField, vc.expiryDateTextField,
        vc.categoryTextField, none, none, none⟩ := by
  refine ⟨continueButtonPressed_some, ?_⟩
  rintro ⟨hv, rfl⟩
  simp [AddProductVC.continueButtonPressed, hv]

namespace AddForm

def lastTyped (es : List FormMoment) : Option String := (es.filterMap typed).getLast?

def lastDay (L : Locale) (field : DateField) (s : AddForm) (es : List FormMoment) : Option Int :=
  (Runs.log (AddForm.step L) (doneDays field) s es).getLast?

def lastChosen (L : Locale) (s : AddForm) (es : List FormMoment) : Option String :=
  (Runs.log (AddForm.step L) chosen s es).getLast?

/-- Continue is pressed on a form that the check refuses. -/
def Refused (s : AddForm) : FormMoment → Prop
  | (_, .continueButtonPressed) => s.vc.validateFields ≠ none
  | _ => False

end AddForm

section
variable {L : Locale} {s s' : AddForm} {e : FormMoment}

theorem step_productName (h : s.step L e = some s') :
    s'.vc.productNameTextField = (typed e).getD s.vc.productNameTextField := by
  obtain ⟨categories, e⟩ := e
  cases e with
  | datePicked field d => cases h; cases field <;> rfl
  | donePressed => obtain ⟨field, -, rfl⟩ := Option.map_eq_some_iff.mp h; rfl
  | notificationSettings authorized => obtain ⟨r, -, rfl⟩ := Option.map_eq_some_iff.mp h; rfl
  | titleForRow row => rw [titleForRow_some h]; rfl
  | didSelectRow row => rw [didSelectRow_some h]; rfl
  | closePickerView => rw [closePickerView_some h]; rfl
  | continueButtonPressed => cases h; simp only [AddProductVC.continueButtonPressed]; split <;> rfl
  | _ => cases h; rfl

theorem step_day (field : DateField) (h : s.step L e = some s') :
    s'.vc.dateText field = ((doneDays field s e).getLast?.map L.mediumString).getD (s.vc.dateText field) := by
  obtain ⟨categories, e⟩ := e
  cases e with
  | productNameChanged => cases h; cases field <;> rfl
  | datePicked picked d => cases h; cases picked <;> cases field <;> rfl
  | donePressed => obtain ⟨edited, -, rfl⟩ := Option.map_eq_some_iff.mp h; cases field <;> rfl
  | notificationSettings authorized => obtain ⟨r, -, rfl⟩ := Option.map_eq_some_iff.mp h; rfl
  | titleForRow row => rw [titleForRow_some h]; cases field <;> rfl
  | didSelectRow row => rw [didSelectRow_some h]; cases field <;> rfl
  | closePickerView => rw [closePickerView_some h]; cases field <;> rfl
  | showPicker => cases h; cases field <;> rfl
  | continueButtonPressed => cases h; exact continueButtonPressed_dateText Unit s.vc field
  | editingBegan | editingEnded | switchDidChanged => cases h; rfl

theorem step_category (h : s.step L e = some s') :
    s'.vc.categoryTextField = ((chosen s e).getLast?.map id).getD s.vc.categoryTextField := by
  obtain ⟨categories, e⟩ := e
  rw [Option.map_id_fun, id]
  rcases picker_step h with ⟨hp, hsame⟩ | ⟨pe, vc, hp, hvc, rfl⟩
  · have hnone : chosen s (categories, e) = [] := by cases e <;> first | rfl | cases hp
    rw [hnone]
    exact congrArg CategoryPicker.categoryTextField hsame
  · exact picker_chosen hp hvc

theorem step_alpha (h : s.step L e = some s') : s'.vc.alpha = 1 ↔ s.vc.alpha = 1 ∨ Refused s e := by
  obtain ⟨categories, e⟩ := e
  cases e with
  | datePicked field d => cases h; cases field <;> exact (iff_of_eq (or_false _)).symm
  | donePressed => obtain ⟨field, -, rfl⟩ := Option.map_eq_some_iff.mp h; exact (iff_of_eq (or_false _)).symm
  | notificationSettings authorized =>
    obtain ⟨r, -, rfl⟩ := Option.map_eq_some_iff.mp h
    exact (iff_of_eq (or_false _)).symm
  | titleForRow row => rw [titleForRow_some h]; exact (iff_of_eq (or_false _)).symm
  | didSelectRow row => rw [didSelectRow_some h]; exact (iff_of_eq (or_false _)).symm
  | closePickerView => rw [closePickerView_some h]; exact (iff_of_eq (or_false _)).symm
  | continueButtonPressed =>
    cases h
    unfold Refused AddProductVC.continueButtonPressed
    cases hv : s.vc.validateFields <;> simp [AddProductVC.showError]
  | _ => cases h; exact (iff_of_eq (or_false _)).symm

end

theorem handed_iff {L : Locale} {purchase expiry : Int} {es : List FormMoment} {s : AddForm}
    (hrun : Runs.run (AddForm.step L) (viewDidLoad purchase expiry) es = some s) {Image : Type}
    {p : ProductComponents Image} : (s.vc.continueButtonPressed Image).2 = some p ↔
      ∃ name purchased expires category, lastTyped es = some name ∧
        lastDay L .purchase (viewDidLoad purchase expiry) es = some purchased ∧
        lastDay L .expiry (viewDidLoad purchase expiry) es = some expires ∧
        lastChosen L (viewDidLoad purchase expiry) es = some category ∧
        Filled name ∧ Filled (L.mediumString purchased) ∧ Filled (L.mediumString expires) ∧ Filled category ∧
        p = ⟨some name, some (L.mediumString purchased), some (L.mediumString expires), some category, none, none,
          none⟩ := by
  have hname : s.vc.productNameTextField = (lastTyped es).getD "" :=
    Runs.run_last (f := fun s => s.vc.productNameTextField) (fun _ _ _ h => step_productName h) hrun
  have hday : ∀ field, s.vc.dateText field =
      ((lastDay L field (viewDidLoad purchase expiry) es).map L.mediumString).getD "" := by
    intro field
    have h := Runs.run_written (f := fun s => s.vc.dateText field) (fun _ _ _ h => step_day field h) hrun
    cases field <;> exact h
  have hcategory : s.vc.categoryTextField = ((lastChosen L (viewDidLoad purchase expiry) es).map id).getD "" :=
    Runs.run_written (f := fun s => s.vc.categoryTextField) (fun _ _ _ h => step_category h) hrun
  rw [Option.map_id_fun, id] at hcategory
  have hpurchase : s.vc.purchaseDateTextField = _ := hday .purchase
  have hexpiry : s.vc.expiryDateTextField = _ := hday .expiry
  rw [continueButtonPressed_iff, validateFields_iff]
  constructor
  · rintro ⟨⟨h₁, h₂, h₃, h₄⟩, rfl⟩
    obtain ⟨purchased, hd, hp⟩ := Option.map_eq_some_iff.mp (filled_getD hpurchase.symm h₂)
    obtain ⟨expires, hd', he⟩ := Option.map_eq_some_iff.mp (filled_getD hexpiry.symm h₃)
    refine ⟨s.vc.productNameTextField, purchased, expires, s.vc.categoryTextField,
      filled_getD hname.symm h₁, hd, hd', filled_getD hcategory.symm h₄, h₁, ?_, ?_, h₄, ?_⟩
    · rwa [hp]
    · rwa [he]
    · rw [hp, he]
  · rintro ⟨name, purchased, expires, category, hn, hd, hd', hc, h₁, h₂, h₃, h₄, rfl⟩
    rw [hn, Option.getD_some] at hname
    rw [hd, Option.map_some, Option.getD_some] at hpurchase
    rw [hd', Option.map_some, Option.getD_some] at hexpiry
    rw [hc, Option.getD_some] at hcategory
    rw [hname, hpurchase, hexpiry, hcategory]
    exact ⟨⟨h₁, h₂, h₃, h₄⟩, rfl⟩

/-- **Continue.** What the whole run of a form has put into it, and whether it is enough. -/
theorem form_hands_on (L : Locale) (purchase expiry : Int) (es : List FormMoment) {s : AddForm}
    (hrun : Runs.run (AddForm.step L) (viewDidLoad purchase expiry) es = some s) :
    (∀ (Image : Type) (p : ProductComponents Image), (s.vc.continueButtonPressed Image).2 = some p ↔
      ∃ name purchased expires category, lastTyped es = some name ∧
        lastDay L .purchase (viewDidLoad purchase expiry) es = some purchased ∧
        lastDay L .expiry (viewDidLoad purchase expiry) es = some expires ∧
        lastChosen L (viewDidLoad purchase expiry) es = some category ∧
        Filled name ∧ Filled (L.mediumString purchased) ∧ Filled (L.mediumString expires) ∧ Filled category ∧
        p = ⟨some name, some (L.mediumString purchased), some (L.mediumString expires), some category, none,
          none, none⟩) ∧
    (s.vc.alpha = 1 ↔ Runs.Meets (AddForm.step L) Refused (viewDidLoad purchase expiry) es) := by
  refine ⟨fun Image p => handed_iff hrun, ?_⟩
  refine Runs.run_history (I := fun s es => s.vc.alpha = 1 ↔ Runs.Meets (AddForm.step L) Refused _ es) ?_ ?_ hrun
  · refine iff_of_false ?_ (Runs.not_meets_nil _ _)
    intro h
    cases h
  · intro t es e t' hes ih ht
    rw [step_alpha ht, ih, Runs.meets_snoc _ hes]

/-- The phone is handed on, and the refusal at the start has left the error in sight. -/
theorem form_hands_on_phone : ∃ s, Runs.run (AddForm.step en_US) (viewDidLoad 18983 19347) phoneMoments = some s ∧
    (s.vc.continueButtonPressed String).2 =
      some ⟨some "Phone", some "Dec 21, 2021", some "Dec 21, 2022", some "Phones", none, none, none⟩ ∧
    s.vc.alpha = 1 := by
  obtain ⟨s, hs⟩ : ∃ s, Runs.run (AddForm.step en_US) (viewDidLoad 18983 19347) phoneMoments = some s := ⟨_, rfl⟩
  obtain ⟨hhanded, halpha⟩ := form_hands_on en_US 18983 19347 phoneMoments hs
  refine ⟨s, hs, (hhanded String _).mpr ⟨"Phone", 18982, 19347, "Phones", rfl, rfl, rfl, rfl, by decide, by decide,
    by decide, by decide, rfl⟩, halpha.mpr ?_⟩
  have hrefused : (viewDidLoad 18983 19347).vc.validateFields ≠ none := by decide
  exact ⟨[], (phones, .continueButtonPressed), phoneMoments.tail, _, rfl, rfl, hrefused⟩

end WarrantyGuard

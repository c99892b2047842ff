import WarrantyGuard.DateForm
import WarrantyGuard.Reminder
import WarrantyGuard.Shared

/-!
# The whole add form

`AddProductVC` with everything that happens on it: the name is typed, the dates
are picked under one Done, the category's picker draws, selects and is closed,
the switch queues a block, Continue is pressed. An event stands next to what
`AppDelegate.categories` holds at the time. The dates, the reminder and the
picker are views of the form. The date fields and the category field take their texts
from the pickers only; pasting into them and a hardware keyboard are left out.
-/

namespace WarrantyGuard

structure AddForm where
  vc : AddProductVC
  editing : Option DateField
  isOn : Bool
  settings : Nat
  requests : List Reminder
  currentIndex : Nat
  rows : Option Nat

inductive FormEvent where
  | productNameChanged (productName : String)
  | editingBegan (field : DateField)
  | editingEnded
  | datePicked (field : DateField) (d : Int)
  | donePressed
  | switchDidChanged
  | notificationSettings (authorized : Bool)
  | showPicker
  | titleForRow (row : Nat)
  | didSelectRow (row : Nat)
  | closePickerView
  | continueButtonPressed

abbrev FormMoment := List Category × FormEvent

namespace AddForm

def viewDidLoad (purchase expiry : Int) : AddForm where
  vc := ⟨"", "", "", "", purchase, expiry, "", 0⟩
  editing := none
  isOn := false
  settings := 0
  requests := []
  currentIndex := 0
  rows := none

def dates (s : AddForm) : DateForm := ⟨s.vc, s.editing⟩

def reminder (s : AddForm) : ReminderForm := ⟨s.vc, s.isOn, s.settings, s.requests⟩

def picker (s : AddForm) : CategoryPicker := ⟨s.currentIndex, s.rows, s.vc.categoryTextField⟩

def withPicker (s : AddForm) (vc : CategoryPicker) : AddForm :=
  { s with
    vc := { s.vc with categoryTextField := vc.categoryTextField },
    currentIndex := vc.currentIndex, rows := vc.rows }

@[simp] theorem withPicker_picker (s : AddForm) (vc : CategoryPicker) : (s.withPicker vc).picker = vc := rfl

def step (L : Locale) (s : AddForm) : FormMoment → Option AddForm
  | (_, .productNameChanged productName) => some { s with vc := { s.vc with productNameTextField := productName } }
  | (_, .editingBegan field) => some { s with editing := some field }
  | (_, .editingEnded) => some { s with editing := none }
  | (_, .datePicked field d) => some { s with vc := s.vc.pickDate d field }
  | (_, .donePressed) => s.editing.map fun _ => { s with vc := s.vc.donePressed L, editing := none }
  | (_, .switchDidChanged) =>
    let r := s.reminder.switchDidChanged
    some { s with isOn := r.isOn, settings := r.settings }
  | (_, .notificationSettings authorized) =>
    (s.reminder.notificationSettings L authorized).map fun r =>
      { s with settings := r.settings, requests := r.requests }
  | (categories, .showPicker) => some (s.withPicker (s.picker.appear categories))
  | (categories, .titleForRow row) =>
    if s.picker.counts row then (s.picker.titleForRow categories row).map fun r => s.withPicker r.1 else none
  | (categories, .didSelectRow row) =>
    if s.picker.counts row then (s.picker.didSelectRow categories row).map s.withPicker else none
  | (categories, .closePickerView) =>
    if s.picker.rows.isSome then (s.picker.closePickerView categories).map s.withPicker else none
  | (_, .continueButtonPressed) => some { s with vc := (s.vc.continueButtonPressed Unit).1 }

/-! ## What an event is to the views -/

def asDate (s : AddForm) : FormMoment → List DateEvent
  | (_, .productNameChanged productName) => [.productNameChanged productName]
  | (_, .editingBegan field) => [.editingBegan field]
  | (_, .editingEnded) => [.editingEnded]
  | (_, .datePicked field d) => [.datePicked field d]
  | (_, .donePressed) => [.donePressed]
  | (categories, .didSelectRow row) => [.categoryChanged (nameOf categories row)]
  | (categories, .closePickerView) => [.categoryChanged (nameOf categories s.currentIndex)]
  | (_, .continueButtonPressed) => [.continueButtonPressed]
  | _ => []

def asReminder (s : AddForm) : FormMoment → List ReminderEvent
  | (_, .productNameChanged productName) => [.productNameChanged productName]
  | (_, .datePicked .purchase d) => [.purchasePicked d]
  | (_, .datePicked .expiry d) => [.expiryPicked d]
  | (_, .donePressed) => [.donePressed]
  | (_, .switchDidChanged) => [.switchDidChanged]
  | (_, .notificationSettings authorized) => [.notificationSettings authorized]
  | (categories, .didSelectRow row) => [.categoryChanged (nameOf categories row)]
  | (categories, .closePickerView) => [.categoryChanged (nameOf categories s.currentIndex)]
  | (_, .continueButtonPressed) => [.continueButtonPressed]
  | _ => []

def asPicker : FormMoment → List PickerEvent
  | (_, .showPicker) => [.appear]
  | (_, .titleForRow row) => [.titleForRow row]
  | (_, .didSelectRow row) => [.didSelectRow row]
  | (_, .closePickerView) => [.closePickerView]
  | _ => []

/-! ## What is written -/

def typed : FormMoment → Option String
  | (_, .productNameChanged productName) => some productName
  | _ => none

def doneDays (field : DateField) (s : AddForm) : FormMoment → List Int
  | (_, .donePressed) => [s.vc.datePicker field]
  | _ => []

def chosen (s : AddForm) : FormMoment → List String
  | (categories, .didSelectRow row) => [nameOf categories row]
  | (categories, .closePickerView) => [nameOf categories s.currentIndex]
  | _ => []

end AddForm

def Filled (text : String) : Prop := trimmingCharacters text ≠ ""

instance (text : String) : Decidable (Filled text) := inferInstanceAs (Decidable (_ ≠ _))

end WarrantyGuard

import WarrantyGuard.AddProduct
import WarrantyGuard.Runs

/-!
# The reminder

Turning the switch of `AddProductVC` on asks for the notification settings. The
block that this queues runs later: where notifications are authorized, it
schedules a request for the day a week before the one that the expiry picker
shows by then, otherwise it only offers to open the settings. Nothing takes a
request back. The switch is off when the form is loaded.
-/

namespace WarrantyGuard

/-- `dateComponents([.year, .month, .day], from:)` -/
structure Reminder where
  year : Nat
  month : Nat
  day : Nat
  deriving DecidableEq

def Reminder.ofFields (f : Fields) : Reminder := ⟨f.year, f.month, f.day⟩

def weekBefore (L : Locale) (expiry : Int) : Reminder := .ofFields (L.calendar.fields (expiry - 7))

/-- `settings` counts the queued blocks that have not run. -/
structure ReminderForm where
  vc : AddProductVC
  isOn : Bool
  settings : Nat
  requests : List Reminder

inductive ReminderEvent where
  | productNameChanged (productName : String)
  | categoryChanged (category : String)
  | purchasePicked (d : Int)
  | expiryPicked (d : Int)
  | switchDidChanged
  | notificationSettings (authorized : Bool)
  | donePressed
  | continueButtonPressed
  deriving DecidableEq

namespace ReminderForm

def viewDidLoad (purchase expiry : Int) : ReminderForm := ⟨⟨"", "", "", "", purchase, expiry, "", 0⟩, false, 0, []⟩

def switchDidChanged (s : ReminderForm) : ReminderForm :=
  if s.isOn then { s with isOn := false } else { s with isOn := true, settings := s.settings + 1 }

/-- The queued block. -/
def notificationSettings (L : Locale) (s : ReminderForm) (authorized : Bool) : Option ReminderForm :=
  match s.settings with
  | 0 => none
  | settings + 1 =>
    if authorized then
      some { s with settings := settings, requests := s.requests ++ [weekBefore L s.vc.expiryDatePicker] }
    else some { s with settings := settings }

def step (L : Locale) (s : ReminderForm) : ReminderEvent → Option ReminderForm
  | .productNameChanged productName => some { s with vc := { s.vc with productNameTextField := productName } }
  | .categoryChanged category => some { s with vc := { s.vc with categoryTextField := category } }
  | .purchasePicked d => some { s with vc := { s.vc with purchasDatePicker := d } }
  | .expiryPicked d => some { s with vc := { s.vc with expiryDatePicker := d } }
  | .switchDidChanged => some s.switchDidChanged
  | .notificationSettings authorized => s.notificationSettings L authorized
  | .donePressed => some { s with vc := s.vc.donePressed L }
  | .continueButtonPressed => some { s with vc := (s.vc.continueButtonPressed Unit).1 }

end ReminderForm

/-! ## What the events say by themselves -/

/-- The days the expiry picker showed when an authorized block ran. -/
def blockDays : Int → List ReminderEvent → List Int
  | _, [] => []
  | _, .expiryPicked d :: es => blockDays d es
  | d, .notificationSettings true :: es => d :: blockDays d es
  | d, _ :: es => blockDays d es

/-- The day the expiry picker showed when Done was pressed last. -/
def doneDay : Int → List ReminderEvent → Option Int
  | _, [] => none
  | _, .expiryPicked d :: es => doneDay d es
  | d, .donePressed :: es => (doneDay d es).or (some d)
  | d, _ :: es => doneDay d es

def isFlipped (es : List ReminderEvent) : Bool := es.count .switchDidChanged % 2 = 1

end WarrantyGuard

import WarrantyGuard.AddProduct
import WarrantyGuard.Runs

/-!
# The two dates of the form

Each date field of `AddProductVC` is edited with a picker of its own, under a
toolbar with one Done for both, which is on screen while one of them is edited
and ends the editing. The fields are empty when the form is loaded, and only Done
writes them: texts pasted into them or typed on a hardware keyboard are left out.
-/

namespace WarrantyGuard

inductive DateField where
  | purchase
  | expiry
  deriving DecidableEq

def DateField.other : DateField → DateField
  | .purchase => .expiry
  | .expiry => .purchase

namespace AddProductVC

def dateText (vc : AddProductVC) : DateField → String
  | .purchase => vc.purchaseDateTextField
  | .expiry => vc.expiryDateTextField

def datePicker (vc : AddProductVC) : DateField → Int
  | .purchase => vc.purchasDatePicker
  | .expiry => vc.expiryDatePicker

def pickDate (vc : AddProductVC) (d : Int) : DateField → AddProductVC
  | .purchase => { vc with purchasDatePicker := d }
  | .expiry => { vc with expiryDatePicker := d }

end AddProductVC

def ProductComponents.date {Image : Type} (p : ProductComponents Image) : DateField → Option String
  | .purchase => p.purchaseDate
  | .expiry => p.expiryDate

structure DateForm where
  vc : AddProductVC
  editing : Option DateField

inductive DateEvent where
  | productNameChanged (productName : String)
  | categoryChanged (category : String)
  | editingBegan (field : DateField)
  | editingEnded
  | datePicked (field : DateField) (d : Int)
  | donePressed
  | continueButtonPressed

namespace DateForm

def viewDidLoad (purchase expiry : Int) : DateForm := ⟨⟨"", "", "", "", purchase, expiry, "", 0⟩, none⟩

def step (L : Locale) (s : DateForm) : DateEvent → Option DateForm
  | .productNameChanged productName => some { s with vc := { s.vc with productNameTextField := productName } }
  | .categoryChanged category => some { s with vc := { s.vc with categoryTextField := category } }
  | .editingBegan field => some { s with editing := some field }
  | .editingEnded => some { s with editing := none }
  | .datePicked field d => some { s with vc := s.vc.pickDate d field }
  | .donePressed => s.editing.map fun _ => ⟨s.vc.donePressed L, none⟩
  | .continueButtonPressed => some { s with vc := (s.vc.continueButtonPressed Unit).1 }

end DateForm

/-! ## What Done is for -/

/-- The edited field takes its own picker's date and nothing else changes. -/
def AddProductVC.confirm (L : Locale) (vc : AddProductVC) : DateField → AddProductVC
  | .purchase => { vc with purchaseDateTextField := L.mediumString vc.purchasDatePicker }
  | .expiry => { vc with expiryDateTextField := L.mediumString vc.expiryDatePicker }

def doneShows (field : DateField) (s : DateForm) : DateEvent → List Int
  | .donePressed => [s.vc.datePicker field]
  | _ => []

def confirmation (field : DateField) (s : DateForm) : DateEvent → List Int
  | .donePressed => if s.editing = some field then [s.vc.datePicker field] else []
  | _ => []

/-- The day the field's picker showed when Done was pressed last, for either field. -/
def lastDone (L : Locale) (field : DateField) (s : DateForm) (es : List DateEvent) : Option Int :=
  (Runs.log (DateForm.step L) (doneShows field) s es).getLast?

/-- The day the field's picker showed when Done was pressed last for the field itself. -/
def lastConfirmed (L : Locale) (field : DateField) (s : DateForm) (es : List DateEvent) : Option Int :=
  (Runs.log (DateForm.step L) (confirmation field) s es).getLast?

end WarrantyGuard

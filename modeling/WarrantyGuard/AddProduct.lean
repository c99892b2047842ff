import WarrantyGuard.Dates
import WarrantyGuard.Product
import WarrantyGuard.Swift

/-!
# The add form

`AddProductVC` collects the four texts of a product and hands them to `CameraVC`,
which adds the warranty's image and hands them on. A text field's text is never
nil: it reads "" where nil was assigned. A picker shows a day. An error label
shows its text once its `alpha` is 1. `continueButtonPressed` and
`nextButtonPressed` give what the segue, if it is performed, sends on.
-/

namespace WarrantyGuard

structure AddProductVC where
  productNameTextField : String
  purchaseDateTextField : String
  expiryDateTextField : String
  categoryTextField : String
  purchasDatePicker : Int
  expiryDatePicker : Int
  errorLabel : String
  alpha : Nat

namespace AddProductVC

def donePressed (L : Locale) (vc : AddProductVC) : AddProductVC :=
  { vc with purchaseDateTextField := L.mediumString vc.purchasDatePicker,
            expiryDateTextField := L.mediumString vc.expiryDatePicker }

def validateFields (vc : AddProductVC) : Option String :=
  if trimmingCharacters vc.productNameTextField = "" ∨ trimmingCharacters vc.purchaseDateTextField = "" ∨
      trimmingCharacters vc.expiryDateTextField = "" ∨ trimmingCharacters vc.categoryTextField = "" then
    some "Please fill in all fields"
  else none

def showError (vc : AddProductVC) (message : String) : AddProductVC :=
  { vc with errorLabel := message, alpha := 1 }

def continueButtonPressed (Image : Type) (vc : AddProductVC) : AddProductVC × Option (ProductComponents Image) :=
  match vc.validateFields with
  | some error => (vc.showError error, none)
  | none => (vc, some
    { productName := vc.productNameTextField
      purchaseDate := vc.purchaseDateTextField
      expiryDate := vc.expiryDateTextField
      category := vc.categoryTextField
      warrantyImage := none
      productImage := none
      warrantyNots := none })

end AddProductVC

structure CameraVC (Image : Type) where
  product : Option (ProductComponents Image)
  warrantyImageView : Option Image
  errorLabel : String
  alpha : Nat

def CameraVC.nextButtonPressed {Image : Type} (vc : CameraVC Image) :
    CameraVC Image × Option (ProductComponents Image) :=
  match vc.warrantyImageView with
  | some image => (vc, some
    { productName := vc.product.bind (·.productName)
      purchaseDate := vc.product.bind (·.purchaseDate)
      expiryDate := vc.product.bind (·.expiryDate)
      category := vc.product.bind (·.category)
      warrantyImage := some image
      productImage := none
      warrantyNots := none })
  | none => ({ vc with errorLabel := "Please enter your warranty picture", alpha := 1 }, none)

end WarrantyGuard

import WarrantyGuard.AddProduct
import WarrantyGuard.Search
import WarrantyGuard.Upload

/-!
# A product's way to the display

Two segues take a product from `AddProductVC` over `CameraVC` to
`OptionalDataVC`, each `prepare` handing on what the screen before it packed.
`DisplayVC` is sent a product that `DetailVC` or `SearchVC` has read back. It
unwraps the product's `warrantyImage`, which traps on nil; `warrantyImageView`
is the text it makes the image's `URL` of.
-/

namespace WarrantyGuard

def AddProductVC.prepare {Image : Type} (destination : CameraVC Image) (sender : ProductComponents Image) :
    CameraVC Image :=
  { destination with product := some sender }

def CameraVC.prepare {Image : Type} (finalDestination : OptionalDataVC Image) (sender : ProductComponents Image) :
    OptionalDataVC Image :=
  { finalDestination with product := some sender }

structure DisplayVC where
  product : Option Product
  productNameLabel : Option String
  purchaseDateLabel : Option String
  expiryDateLabel : Option String
  warrantyImageView : String
  isHidden : Bool
  notesTV : Option String

namespace DisplayVC

def displayProduct (vc : DisplayVC) : Option DisplayVC :=
  (vc.product.bind (·.warrantyImage)).map fun url =>
    let vc := { vc with productNameLabel := vc.product.bind (·.productName),
                        purchaseDateLabel := vc.product.bind (·.purchaseDate),
                        expiryDateLabel := vc.product.bind (·.expiryDate),
                        warrantyImageView := url }
    if vc.product.bind (·.warrantyNots) ≠ some "" then
      { vc with isHidden := false, notesTV := vc.product.bind (·.warrantyNots) }
    else vc

def viewDidLoad (product : Option Product) : Option DisplayVC :=
  displayProduct ⟨product, none, none, none, "", true, none⟩

end DisplayVC

/-- What Next on `CameraVC` sends on after Continue on `AddProductVC`. -/
def packed {Image : Type} (form : AddProductVC) (camera : CameraVC Image) : Option (ProductComponents Image) :=
  (form.continueButtonPressed Image).2.bind fun product =>
    (AddProductVC.prepare camera product).nextButtonPressed.2

end WarrantyGuard

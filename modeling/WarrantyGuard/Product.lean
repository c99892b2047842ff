import WarrantyGuard.Firestore

/-!
# Products and categories

The records the screens pass on, and how they are written to and read from the
documents of the `Produts` and `Category` collections. `ProductComponents` is a
product while the add screens collect it, with its images; `Product` is one
read back, with the images' URLs, by the decoding `DetailVC` and `SearchVC` both
make of `i.data()`. `productData` is the dictionary of
`OptionalDataVC.uploadProduct`, where `uid` is `Auth.auth().currentUser?.uid`.
-/

namespace WarrantyGuard

structure ProductComponents (Image : Type) where
  productName : Option String
  purchaseDate : Option String
  expiryDate : Option String
  category : Option String
  warrantyImage : Option Image
  productImage : Option Image
  warrantyNots : Option String
  deriving DecidableEq

structure Product where
  productName : Option String
  purchaseDate : Option String
  expiryDate : Option String
  category : Option String
  warrantyImage : Option String
  productImage : Option String
  warrantyNots : Option String
  deriving DecidableEq

def Product.ofData (data : Data) : Product where
  productName := data.string "productName"
  purchaseDate := data.string "purchaseDate"
  expiryDate := data.string "expiryDate"
  category := data.string "category"
  warrantyImage := data.string "warrantyImage"
  productImage := data.string "productImage"
  warrantyNots := data.string "warrantyNots"

structure Category where
  categoryId : Option String
  categoryName : Option String
  deriving DecidableEq

def Category.ofData (data : Data) : Category where
  categoryId := data.string "categoryID"
  categoryName := data.string "categoryName"

/-- An optional string in a `[String : Any]` literal. -/
def stored : Option String → Value
  | some s => .string s
  | none => .null

@[simp] theorem stored_asString (o : Option String) : (stored o).asString = o := by
  cases o <;> rfl

def productData {Image : Type} (uploadedProduct : ProductComponents Image) (notes warrantyUrl productUrl : String)
    (uid : Option String) : Data :=
  [("productName", stored uploadedProduct.productName),
   ("purchaseDate", stored uploadedProduct.purchaseDate),
   ("expiryDate", stored uploadedProduct.expiryDate),
   ("category", stored uploadedProduct.category),
   ("warrantyNots", .string notes),
   ("warrantyImage", .string warrantyUrl),
   ("productImage", .string productUrl),
   ("userID", stored uid)]

section
variable {Image : Type} (p : ProductComponents Image) (notes warrantyUrl productUrl : String) (uid : Option String)

theorem ofData_productData :
    Product.ofData (productData p notes warrantyUrl productUrl uid) =
      ⟨p.productName, p.purchaseDate, p.expiryDate, p.category, some warrantyUrl, some productUrl,
        some notes⟩ := by
  simp [Product.ofData, productData, Data.string, List.lookup_cons]

theorem productData_userID :
    (productData p notes warrantyUrl productUrl uid).string "userID" = uid := by
  simp [productData, Data.string, List.lookup_cons]

theorem productData_warrantyNots :
    (productData p notes warrantyUrl productUrl uid).string "warrantyNots" = some notes := by
  simp [productData, Data.string, List.lookup_cons]

theorem productData_warrantyImage :
    (productData p notes warrantyUrl productUrl uid).string "warrantyImage" = some warrantyUrl := by
  simp [productData, Data.string, List.lookup_cons]

theorem productData_productImage :
    (productData p notes warrantyUrl productUrl uid).string "productImage" = some productUrl := by
  simp [productData, Data.string, List.lookup_cons]

end

end WarrantyGuard

import WarrantyGuard.Form
import WarrantyGuard.Search

/-!
# The shelf

What the `Produts` collection is for: warranties, each complete and each its
owner's. A warranty is put under a new id and taken back if saving it fails;
nothing else happens to it. The owner sees a category's warranties and finds them
by their name, in the order of their ids.
-/

namespace WarrantyGuard

structure Warranty where
  productName : String
  purchaseDate : String
  expiryDate : String
  category : String
  warrantyImage : String
  productImage : String
  warrantyNots : String
  userID : Option String
  productName_filled : Filled productName
  purchaseDate_filled : Filled purchaseDate
  expiryDate_filled : Filled expiryDate
  category_filled : Filled category
  warrantyImage_ne : warrantyImage ≠ ""

namespace Warranty

def product (w : Warranty) : Product where
  productName := some w.productName
  purchaseDate := some w.purchaseDate
  expiryDate := some w.expiryDate
  category := some w.category
  warrantyImage := some w.warrantyImage
  productImage := some w.productImage
  warrantyNots := some w.warrantyNots

/-- The dictionary that `uploadProduct` writes. -/
def data (w : Warranty) : Data :=
  productData (⟨some w.productName, some w.purchaseDate, some w.expiryDate, some w.category, none, none, none⟩ :
    ProductComponents Unit) w.warrantyNots w.warrantyImage w.productImage w.userID

end Warranty

abbrev Shelf := AList fun _ : String => Warranty

inductive ShelfEvent where
  | put (id : String) (w : Warranty)
  | takeBack (id : String)

namespace Shelf

def step (t : Shelf) : ShelfEvent → Option Shelf
  | .put id w => if id ∈ t then none else some (t.insert id w)
  | .takeBack id => if id ∈ t then some (t.erase id) else none

def collection (t : Shelf) : Collection := Listing.mapValues Warranty.data t

def warranties (t : Shelf) : List Warranty :=
  (t.entries.insertionSort fun a b => a.1 ≤ b.1).map (·.2)

def inCategory (t : Shelf) (category user : String) : List Warranty :=
  t.warranties.filter fun w => w.category = category ∧ w.userID = some user

def matching (t : Shelf) (ops : StringOps) (query : Query) : List Warranty :=
  t.warranties.filter fun w =>
    ops.contains (ops.lowercased w.productName) (ops.lowercased query.searchText) ∧ w.userID = some query.userID

end Shelf

end WarrantyGuard

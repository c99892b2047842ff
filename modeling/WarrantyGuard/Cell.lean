import Mathlib.Algebra.Order.Field.Rat
import WarrantyGuard.Dates
import WarrantyGuard.Product

/-!
# A product's cell

`DetailVC` fills a cell, new or used before, from a product, the locale and the
day. `none` is a forced unwrap of nil. The progress is taken as the rational
that the code computes, `none` where it divides by zero; the image is the URL
last asked for.
-/

namespace WarrantyGuard

structure DetailTableViewCell where
  productName : Option String
  daysLeftLabel : Option String
  progress : Option ℚ
  productImageView : Option String

namespace DetailVC

/-- What `completion` is called with: the days left and the total days. -/
def calculateDurationDate (L : Locale) (now : Int) (purchaseDateString expiryDateString : String) :
    Option (Int × Int) :=
  (L.date (L.string now)).bind fun nowDate =>
    (L.date expiryDateString).bind fun expiryDate =>
      (L.date purchaseDateString).map fun purchaseDate => (expiryDate - nowDate, expiryDate - purchaseDate)

def remind (daysLeft totalDays : Int) : Option ℚ :=
  if totalDays = 0 then none else some ((totalDays - daysLeft : Int) * (1 / (totalDays : ℚ)))

def showDuration (cell : DetailTableViewCell) (daysLeft totalDays : Int) : DetailTableViewCell :=
  if daysLeft > 0 then
    { cell with daysLeftLabel := some (toString daysLeft ++ " days left"), progress := remind daysLeft totalDays }
  else { cell with daysLeftLabel := some "Expired", progress := some 1 }

def showImage (cell : DetailTableViewCell) : Option String → DetailTableViewCell
  | some productImageUrl => { cell with productImageView := some productImageUrl }
  | none => cell

def cellForRowAt (L : Locale) (now : Int) (cell : DetailTableViewCell) (product : Product) :
    Option DetailTableViewCell :=
  let cell := { cell with productName := product.productName }
  match product.purchaseDate, product.expiryDate with
  | some purchase, some expiry =>
    (calculateDurationDate L now purchase expiry).map fun (daysLeft, totalDays) =>
      showImage (showDuration cell daysLeft totalDays) product.productImage
  | _, _ => some (showImage cell product.productImage)

end DetailVC

end WarrantyGuard

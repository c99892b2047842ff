import WarrantyGuard.Runs
import WarrantyGuard.Product

/-!
# The products of a category

`DetailVC` registers one snapshot listener when it is loaded, for the user
signed in at that moment, and keeps the products the listener's callbacks bring.
`userID` is the uid the listener captured, `none` where nobody was signed in and
no listener exists. `rows` is the row count the table last read, `noData` counts
the "No Data To Display" placeholders added to the view.
-/

namespace WarrantyGuard

/-- `if let userId = data["userID"] as? String { if userId == userID … }`. Both sides are uids,
which are ASCII texts: on these Swift's `==`, canonical equivalence, is equality. -/
def isOwn (userID : String) (i : Document) : Bool := i.data.string "userID" == some userID

structure DetailVC where
  category : String
  userID : Option String
  products : List Product
  rows : Nat
  isHidden : Bool
  noData : Nat

namespace DetailVC

def viewDidLoad (category : String) (currentUser : Option String) : DetailVC where
  category := category
  userID := currentUser
  products := []
  rows := 0
  isHidden := false
  noData := 0

def hideTableView (vc : DetailVC) : DetailVC :=
  if vc.products.length = 0 then { vc with isHidden := true, noData := vc.noData + 1 } else vc

/-- The listener's callback. -/
def getProductForCategory (vc : DetailVC) (callback : Callback) : DetailVC :=
  match vc.userID with
  | none => vc
  | some userID =>
    match callback with
    | .error => vc.hideTableView
    | .snapshot value =>
      let products := value.foldl
        (fun products i => if isOwn userID i then products ++ [Product.ofData i.data] else products) vc.products
      { vc with products := products, rows := products.length }.hideTableView

end DetailVC

/-!
## What the list is for

After a snapshot it should show that snapshot's own documents. A `Watch` is a
controller together with the documents of its most recent successful snapshot.
-/

def mirror (userID : String) (documents : List Document) : List Product :=
  (documents.filter (isOwn userID)).map (Product.ofData ·.data)

structure Watch where
  vc : DetailVC
  latest : List Document

def Watch.step (s : Watch) (callback : Callback) : Option Watch :=
  some ⟨s.vc.getProductForCategory callback,
    match callback with
    | .snapshot documents => documents
    | .error => s.latest⟩

def Watch.init (category : String) (currentUser : Option String) : Watch :=
  ⟨DetailVC.viewDidLoad category currentUser, []⟩

end WarrantyGuard

import WarrantyGuard.Runs
import WarrantyGuard.Swift
import WarrantyGuard.Product

/-!
# The category list

`AppDelegate.categories` is one list for the whole app: every `getCategories`
listener empties and refills it, `CategoryVC` removes rows from it. The
`Category` collection is changed by the controllers' `setData` and `delete`
calls, both on the document named by the controller's own `categoryID`.

A `CategoryVC` has a key, made when it is loaded, and the row count its table
last read. `getCategories` is the callback of the listener: the new list, and
whether `completion` runs. `addButtonTapped` is the alert's "Add" action.
-/

namespace WarrantyGuard

structure CategoryVC where
  categoryID : String
  rows : Nat

def getCategories (categories : List Category) : Callback → List Category × Bool
  | .error => (removeAll categories, false)
  | .snapshot value =>
    (value.foldl (fun categories i => categories ++ [Category.ofData i.data]) (removeAll categories), true)

namespace CategoryVC

def categoryData (categoryID newCategory : String) (now : ℚ) : Data :=
  [("categoryID", .string categoryID), ("categoryName", .string newCategory), ("timestamp", .number now)]

def addButtonTapped (vc : CategoryVC) (db : Collection) (newCategory : String) (now : ℚ) : Collection :=
  db.setData vc.categoryID (categoryData vc.categoryID newCategory now)

-- `deleteRows` raises unless the table finds one row fewer than it last read
def commitDelete (vc : CategoryVC) (db : Collection) (categories : List Category) (row : Nat) :
    Option (CategoryVC × Collection × List Category) :=
  (removeAt categories row).bind fun categories =>
    if categories.length + 1 = vc.rows then
      some ({ vc with rows := categories.length }, db.delete vc.categoryID, categories)
    else none

end CategoryVC

/-!
## The app's events

A `CategoryVC` is loaded, with a fresh `categoryID`; an alert's "Add" or a row's
delete is confirmed on one of them; a listener fires, the launch's (`none`), whose
completion is empty, or a controller's, whose completion reloads its table.
-/

structure CategoryState where
  collection : Collection
  categories : List Category
  controllers : List CategoryVC

inductive CategoryEvent where
  | viewDidLoad (categoryID : String)
  | addButtonTapped (vc : Nat) (newCategory : String) (now : ℚ)
  | commitDelete (vc row : Nat)
  | listener (vc : Option Nat) (callback : Callback)

namespace CategoryState

def ids (s : CategoryState) : List String := s.controllers.map (·.categoryID)

def completion (s : CategoryState) : Option Nat → Option CategoryState
  | none => some s
  | some vc => (s.controllers[vc]?).map fun c =>
    { s with controllers := s.controllers.set vc { c with rows := s.categories.length } }

def step (s : CategoryState) : CategoryEvent → Option CategoryState
  | .viewDidLoad categoryID =>
    if categoryID ∈ s.ids ∨ categoryID ∈ s.collection then none
    else some { s with controllers := s.controllers ++ [⟨categoryID, s.categories.length⟩] }
  | .addButtonTapped vc newCategory now =>
    (s.controllers[vc]?).map fun c => { s with collection := c.addButtonTapped s.collection newCategory now }
  | .commitDelete vc row =>
    (s.controllers[vc]?).bind fun c =>
      (c.commitDelete s.collection s.categories row).map fun r =>
        { collection := r.2.1, categories := r.2.2, controllers := s.controllers.set vc r.1 }
  | .listener vc callback =>
    let r := getCategories s.categories callback
    if r.2 then { s with categories := r.1 }.completion vc else some { s with categories := r.1 }

def launch (collection : Collection) : CategoryState := ⟨collection, [], []⟩

/-- What a successful callback with the query's current result makes of the list. -/
def nextSnapshot (s : CategoryState) : List Category :=
  (getCategories s.categories (.snapshot (s.collection.orderDescending "timestamp"))).1

end CategoryState

def CategoryEvent.added : CategoryEvent → Option (Nat × String)
  | .addButtonTapped vc newCategory _ => some (vc, newCategory)
  | _ => none

def CategoryEvent.isDelete : CategoryEvent → Bool
  | .commitDelete .. => true
  | _ => false

end WarrantyGuard

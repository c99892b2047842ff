import WarrantyGuard.Detail
import WarrantyGuard.Swift

/-!
# The search screen

Every change of the search text clears the list and, for a signed-in user,
starts a `getDocuments` call that has captured the uid and the text. A call's
completion clears the list again and refills it. The calls complete in any
order. `loaded` is what the table read at its last `reloadData()`.

`lowercased()` and `contains(_:)` are the standard library's, over all of
Unicode; nothing below depends on what they do.
-/

namespace WarrantyGuard

structure StringOps where
  lowercased : String → String
  contains : String → String → Bool

structure Query where
  userID : String
  searchText : String
  deriving DecidableEq

structure SearchVC where
  searchText : String
  products : List Product
  loaded : List Product

namespace SearchVC

def viewDidLoad : SearchVC := ⟨"", [], []⟩

-- `name!` traps on a document without a string `productName`, whoever owns it
def getProducts (ops : StringOps) (vc : SearchVC) (query : Query) : Callback → Option SearchVC
  | .error => some { vc with products := removeAll vc.products }
  | .snapshot value =>
    (value.foldlM (fun products (i : Document) => (i.data.string "productName").map fun name =>
      if ops.contains (ops.lowercased name) (ops.lowercased query.searchText) && isOwn query.userID i then
        products ++ [Product.ofData i.data]
      else products) (removeAll vc.products)).map fun products =>
        { vc with products := products, loaded := products }

/-- The cleared list and the call that `getProducts` starts. -/
def textDidChange (vc : SearchVC) (currentUser : Option String) (searchText : String) : SearchVC × Option Query :=
  ({ vc with searchText := searchText, products := removeAll vc.products }, currentUser.map (⟨·, searchText⟩))

def numberOfRows (vc : SearchVC) : Nat := vc.loaded.length

def cellForRowAt (vc : SearchVC) (row : Nat) : Option (Option String) :=
  (vc.products[row]?).map (·.productName)

def didSelectRowAt (vc : SearchVC) (row : Nat) : Option Product := vc.products[row]?

end SearchVC

/-!
## A session of the screen

`queries` are the `getDocuments` calls made so far, in order, `outstanding` those
that have not completed, and `response i` is what call `i` will be answered.
-/

structure Search where
  vc : SearchVC
  currentUser : Option String
  queries : List Query
  outstanding : List Nat

inductive SearchEvent where
  | textDidChange (searchText : String)
  | deliver (i : Nat)

namespace Search

def init (currentUser : Option String) : Search := ⟨SearchVC.viewDidLoad, currentUser, [], []⟩

def textDidChange (s : Search) (searchText : String) : Search :=
  let r := s.vc.textDidChange s.currentUser searchText
  match r.2 with
  | none => { s with vc := r.1 }
  | some query =>
    { s with vc := r.1, queries := s.queries ++ [query], outstanding := s.outstanding ++ [s.queries.length] }

def step (ops : StringOps) (response : Nat → Callback) (s : Search) : SearchEvent → Option Search
  | .textDidChange searchText => some (s.textDidChange searchText)
  | .deliver i =>
    if i ∈ s.outstanding then
      (s.queries[i]?).bind fun query => (s.vc.getProducts ops query (response i)).map fun vc =>
        { s with vc := vc, outstanding := s.outstanding.erase i }
    else none

end Search

/-! ## What a query asks for -/

def isMatch (ops : StringOps) (query : Query) (i : Document) : Bool :=
  (i.data.string "productName").any (fun name =>
    ops.contains (ops.lowercased name) (ops.lowercased query.searchText) && isOwn query.userID i)

def found (ops : StringOps) (query : Query) : Callback → List Product
  | .error => []
  | .snapshot documents => (documents.filter (isMatch ops query)).map (Product.ofData ·.data)

end WarrantyGuard

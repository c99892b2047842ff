import WarrantyGuard.Detail
import WarrantyGuard.Display
import WarrantyGuard.Search
import WarrantyGuard.Shared
import WarrantyGuard.Table

/-!
# From row to row

A category's row opens a `DetailVC`, whose listener fills a table, and a product's
row opens a `DisplayVC` on top of it. A tap is on a row in view, and a row comes
into view below the count that the table read last. The listener goes on under a
`DisplayVC`. The rows of a `SearchVC` open one too.
-/

namespace WarrantyGuard

/-- `sender as! String` traps on nil. -/
def CategoryVC.prepare (currentUser : Option String) (sender : Option String) : Option DetailVC :=
  sender.map fun category => DetailVC.viewDidLoad category currentUser

def CategoryVC.opened (categories : List Category) (currentUser : Option String) (row : Nat) : Option DetailVC :=
  (CategoryVC.didSelectRowAt categories row).bind (CategoryVC.prepare currentUser)

def DetailVC.didSelectRowAt (vc : DetailVC) (row : Nat) : Option Product := vc.products[row]?

def DetailVC.prepare (sender : Product) : Option DisplayVC := DisplayVC.viewDidLoad (some sender)

structure DetailScreen where
  vc : DetailVC
  visible : List VisibleRow
  reusable : List DetailTableViewCell
  display : Option DisplayVC

inductive ScreenEvent where
  | listener (callback : Callback)
  | rowAppears (row : Nat) (reused : Option Nat) (now : Int)
  | rowDisappears (i : Nat)
  | didSelectRow (i : Nat)
  | back

namespace DetailScreen

def viewDidLoad (category : String) (currentUser : Option String) : DetailScreen :=
  ⟨DetailVC.viewDidLoad category currentUser, [], [], none⟩

def table (s : DetailScreen) : DetailTable := ⟨s.vc.products, s.visible, s.reusable⟩

def withTable (s : DetailScreen) (t : DetailTable) : DetailScreen :=
  { s with visible := t.visible, reusable := t.reusable }

/-- The table is reloaded after a snapshot, not after an error. -/
def listener (s : DetailScreen) (callback : Callback) : DetailScreen :=
  let vc := s.vc.getProductForCategory callback
  match callback with
  | .snapshot _ => { s with vc := vc, visible := [], reusable := s.reusable ++ s.visible.map (·.cell) }
  | .error => { s with vc := vc }

def step (L : Locale) (prototype : DetailTableViewCell) (s : DetailScreen) : ScreenEvent → Option DetailScreen
  | .listener callback => s.vc.userID.map fun _ => s.listener callback
  | .rowAppears row reused now =>
    if row < s.vc.rows then (s.table.step L prototype (.rowAppears row reused now)).map s.withTable else none
  | .rowDisappears i => (s.table.step L prototype (.rowDisappears i)).map s.withTable
  | .didSelectRow i =>
    if s.display.isSome then none
    else (s.visible[i]?).bind fun r => (s.vc.didSelectRowAt r.row).bind fun product =>
      (DetailVC.prepare product).map fun display => { s with display := some display }
  | .back => s.display.map fun _ => { s with display := none }

/-- What an event is to the table. -/
def asTable (s : DetailScreen) : ScreenEvent → List TableEvent
  | .listener (.snapshot documents) => [.reloadData (s.vc.getProductForCategory (.snapshot documents)).products]
  | .rowAppears row reused now => [.rowAppears row reused now]
  | .rowDisappears i => [.rowDisappears i]
  | _ => []

def callbacks : ScreenEvent → List Callback
  | .listener callback => [callback]
  | _ => []

end DetailScreen

/-! ## The rows of a search -/

def SearchVC.prepare (sender : Product) : Option DisplayVC := DisplayVC.viewDidLoad (some sender)

structure SearchRow where
  row : Nat
  productNameLabel : Option String

structure SearchScreen where
  search : Search
  visible : List SearchRow
  display : Option DisplayVC

inductive SearchScreenEvent where
  | search (e : SearchEvent)
  | rowAppears (row : Nat)
  | rowDisappears (i : Nat)
  | didSelectRow (i : Nat)
  | back

/-- A completion without an error reloads the table. -/
def SearchEvent.reloads (response : Nat → Callback) : SearchEvent → Bool
  | .textDidChange _ => false
  | .deliver i => match response i with
    | .snapshot _ => true
    | .error => false

namespace SearchScreen

def viewDidLoad (currentUser : Option String) : SearchScreen := ⟨Search.init currentUser, [], none⟩

def step (ops : StringOps) (response : Nat → Callback) (s : SearchScreen) : SearchScreenEvent → Option SearchScreen
  | .search e => (s.search.step ops response e).map fun search =>
    { s with search := search, visible := if e.reloads response then [] else s.visible }
  | .rowAppears row =>
    if row < s.search.vc.numberOfRows then
      (s.search.vc.cellForRowAt row).map fun label => { s with visible := s.visible ++ [⟨row, label⟩] }
    else none
  | .rowDisappears i => if i < s.visible.length then some { s with visible := s.visible.eraseIdx i } else none
  | .didSelectRow i =>
    if s.display.isSome then none
    else (s.visible[i]?).bind fun r => (s.search.vc.didSelectRowAt r.row).bind fun product =>
      (SearchVC.prepare product).map fun display => { s with display := some display }
  | .back => s.display.map fun _ => { s with display := none }

end SearchScreen

end WarrantyGuard

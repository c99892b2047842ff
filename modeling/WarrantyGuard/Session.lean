import WarrantyGuard.Detail
import WarrantyGuard.Search

/-!
# The session and the window

The window shows one root at a time: the authorization screens or the Home tab
controller, each replacement a root of its own, counted by `root`. A completed
`signIn` or `createUser` changes the current user, and then replaces the root by
a new Home through the `view.window?` of the screen that started it, which is
nil unless that screen is in the window. A tap on Log out comes from a screen in
the window, so a successful `signOut` does reach it. Another Home that the
"product added" screen presents belongs to the root it is presented in.

A screen belongs to the root it was opened in and comes into and leaves the
window as the user navigates, for as long as its root is the window's. The
closures of its calls keep it alive. Next to each list screen stand the documents
that its products come from.
-/

namespace WarrantyGuard

inductive ListVC where
  | detail (vc : DetailVC)
  | search (vc : SearchVC) (queries : List Query)

def ListVC.products : ListVC → List Product
  | .detail vc => vc.products
  | .search vc _ => vc.products

structure ListScreen where
  root : Nat
  appears : Bool
  vc : ListVC
  shown : List Document

/-- `LoginVC` or `SignUpVC`. -/
structure AuthScreen where
  root : Nat
  appears : Bool

structure App where
  currentUser : Option String
  root : Nat
  isHome : Bool
  authScreens : List AuthScreen
  signIns : List Nat
  lists : List ListScreen

inductive AppEvent where
  | openAuth
  | authAppears (i : Nat) (appears : Bool)
  | signInTapped (i : Nat)
  | signInCompleted (k : Nat) (result : Option String)
  | logoutButtonPressed (signsOut : Bool)
  | openDetail (category : String)
  | openSearch
  | listAppears (i : Nat) (appears : Bool)
  | listener (i : Nat) (callback : Callback)
  | textDidChange (i : Nat) (searchText : String)
  | response (i j : Nat) (callback : Callback)

/-! ## The screens' own steps -/

def ownDocuments (userID : String) : Callback → List Document
  | .snapshot documents => documents.filter (isOwn userID)
  | .error => []

def matchingDocuments (ops : StringOps) (query : Query) : Callback → List Document
  | .snapshot documents => documents.filter (isMatch ops query)
  | .error => []

namespace ListScreen

def listener (sc : ListScreen) (callback : Callback) : Option ListScreen :=
  match sc.vc with
  | .search .. => none
  | .detail vc =>
    vc.userID.map fun userID =>
      { sc with vc := .detail (vc.getProductForCategory callback),
                shown := sc.shown ++ ownDocuments userID callback }

def textDidChange (sc : ListScreen) (currentUser : Option String) (searchText : String) : Option ListScreen :=
  match sc.vc with
  | .detail _ => none
  | .search vc queries =>
    let r := vc.textDidChange currentUser searchText
    some { sc with vc := .search r.1 (queries ++ r.2.toList), shown := [] }

def response (ops : StringOps) (sc : ListScreen) (j : Nat) (callback : Callback) : Option ListScreen :=
  match sc.vc with
  | .detail _ => none
  | .search vc queries =>
    (queries[j]?).bind fun query => (vc.getProducts ops query callback).map fun vc =>
      { sc with vc := .search vc (queries.eraseIdx j),
                shown := matchingDocuments ops query callback }

end ListScreen

namespace App

def launch (currentUser : Option String) : App := ⟨currentUser, 0, false, [], [], []⟩

/-- `view.window` is not nil. -/
def authInWindow (s : App) (a : AuthScreen) : Bool := a.root = s.root && a.appears

def listInWindow (s : App) (sc : ListScreen) : Bool := sc.root = s.root && sc.appears

def replaceRoot (s : App) (isHome : Bool) : App := { s with root := s.root + 1, isHome := isHome }

/-- The completion of a `signIn` or `createUser` that the screen `a` started. -/
def signInCompleted (s : App) (a : AuthScreen) : Option String → App
  | none => s
  | some uid =>
    if s.authInWindow a then { s with currentUser := some uid }.replaceRoot true
      else { s with currentUser := some uid }

def onList (s : App) (i : Nat) (f : ListScreen → Option ListScreen) : Option App :=
  (s.lists[i]?).bind fun sc => (f sc).map fun sc => { s with lists := s.lists.set i sc }

def step (ops : StringOps) (s : App) : AppEvent → Option App
  | .openAuth => if s.isHome then none else some { s with authScreens := s.authScreens ++ [⟨s.root, true⟩] }
  | .authAppears i appears => (s.authScreens[i]?).bind fun a =>
    if a.root = s.root then some { s with authScreens := s.authScreens.set i { a with appears := appears } }
      else none
  | .signInTapped i => (s.authScreens[i]?).bind fun a =>
    if s.authInWindow a then some { s with signIns := s.signIns ++ [i] } else none
  | .signInCompleted k result => (s.signIns[k]?).bind fun i => (s.authScreens[i]?).map fun a =>
    { s with signIns := s.signIns.eraseIdx k }.signInCompleted a result
  | .logoutButtonPressed signsOut =>
    if s.isHome then some (if signsOut then { s with currentUser := none }.replaceRoot false else s) else none
  | .openDetail category =>
    if s.isHome then
      some { s with lists := s.lists ++
        [⟨s.root, true, .detail (DetailVC.viewDidLoad category s.currentUser), []⟩] }
    else none
  | .openSearch =>
    if s.isHome then some { s with lists := s.lists ++ [⟨s.root, true, .search SearchVC.viewDidLoad [], []⟩] }
      else none
  | .listAppears i appears => s.onList i fun sc =>
    if sc.root = s.root then some { sc with appears := appears } else none
  | .listener i callback => s.onList i fun sc => sc.listener callback
  | .textDidChange i searchText => s.onList i fun sc =>
    if s.listInWindow sc then sc.textDidChange s.currentUser searchText else none
  | .response i j callback => s.onList i fun sc => sc.response ops j callback

end App

end WarrantyGuard

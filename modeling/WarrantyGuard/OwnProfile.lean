import WarrantyGuard.Profile
import WarrantyGuard.Session

/-!
# The profile in the window

`ProfileVC` is a tab of Home. It is loaded when the tab is first shown, belongs to the
root it is loaded in, and keeps the uid it has captured. Its Log out button is the one
that leaves Home.
-/

namespace WarrantyGuard

structure ProfileScreen where
  root : Nat
  appears : Bool
  vc : ProfileVC

structure ProfileApp where
  app : App
  profiles : List ProfileScreen

inductive ProfileEvent where
  | app (e : AppEvent)
  | openProfile
  | profileAppears (k : Nat) (appears : Bool)
  | listener (k : Nat) (callback : Callback)

namespace ProfileApp

def launch (currentUser : Option String) : ProfileApp := ⟨App.launch currentUser, []⟩

def inWindow (s : ProfileApp) (sc : ProfileScreen) : Bool := sc.root = s.app.root && sc.appears

def onProfile (s : ProfileApp) (k : Nat) (f : ProfileScreen → Option ProfileScreen) : Option ProfileApp :=
  (s.profiles[k]?).bind fun sc => (f sc).map fun sc => { s with profiles := s.profiles.set k sc }

def step (ops : StringOps) (s : ProfileApp) : ProfileEvent → Option ProfileApp
  | .app e => (s.app.step ops e).map fun app => { s with app := app }
  | .openProfile =>
    if s.app.isHome then
      (ProfileVC.viewDidLoad s.app.currentUser).map fun vc =>
        { s with profiles := s.profiles ++ [⟨s.app.root, true, vc⟩] }
    else none
  | .profileAppears k appears => s.onProfile k fun sc =>
    if sc.root = s.app.root then some { sc with appears := appears } else none
  | .listener k callback => s.onProfile k fun sc => (sc.vc.listener callback).map fun vc => { sc with vc := vc }

end ProfileApp

end WarrantyGuard

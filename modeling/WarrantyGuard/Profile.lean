import WarrantyGuard.SignUp

/-!
# The profile

`ProfileVC` listens to the documents of `users` that have the uid signed in when it
is loaded, and shows the names of the last one a callback brings. `none` is a trap:
nobody is signed in, or a document lacks one of the names.
-/

namespace WarrantyGuard

structure ProfileVC where
  uid : String
  firstNameTextView : String
  lastNameTextView : String

namespace ProfileVC

def viewDidLoad (currentUser : Option String) : Option ProfileVC := currentUser.map fun uid => ⟨uid, "", ""⟩

def showDocument (vc : ProfileVC) (doc : Document) : Option ProfileVC :=
  (doc.data.string "firstname").bind fun firstName => (doc.data.string "lastname").map fun lastName =>
    { vc with firstNameTextView := firstName, lastNameTextView := lastName }

def listener (vc : ProfileVC) : Callback → Option ProfileVC
  | .snapshot snapshotDocuments => snapshotDocuments.foldlM showDocument vc
  | .error => some vc

end ProfileVC

/-!
## Sign-ups and profiles

Each tap on Create account is a sign-up of its own; they write one collection, which
stands in `users` between their steps. `createUser` makes a uid that no account has
and signs it in; a `signIn` or `signOut` changes the current user too. `seen` are the
documents that the collection has held: a profile's listener is brought some of
those with its uid.
-/

structure Members where
  users : Collection
  seen : List Document
  accounts : List String
  currentUser : Option String
  signUps : List SignUp
  profiles : List ProfileVC

inductive MembersEvent where
  | createAccountTapped (vc : SignUpVC)
  | signUp (i : Nat) (e : SignUpEvent)
  | authChanged (currentUser : Option String)
  | openProfile
  | listener (k : Nat) (callback : Callback)

def SignUpEvent.uid : SignUpEvent → Option String
  | .createUserCompleted uid _ => uid
  | _ => none

namespace Members

def launch (users : Collection) (currentUser : Option String) : Members :=
  ⟨users, users.documents, [], currentUser, [], []⟩

def answers (s : Members) (vc : ProfileVC) : Callback → Bool
  | .snapshot documents => documents.all fun d => d ∈ s.seen && d.data.lookup "uid" = some (.string vc.uid)
  | .error => true

/-- The sign-up `i` has become `signUp`, with the account `uid` if that is new. -/
def signedUp (s : Members) (i : Nat) (uid : Option String) (signUp : SignUp) : Members :=
  { s with users := signUp.users, seen := s.seen ++ signUp.users.documents, accounts := s.accounts ++ uid.toList,
           currentUser := uid.or s.currentUser, signUps := s.signUps.set i signUp }

def step (u : DecimalDigits) (s : Members) : MembersEvent → Option Members
  | .createAccountTapped vc =>
    some { s with signUps := s.signUps ++ [(SignUp.opened vc s.users).createAccountTapped u] }
  | .signUp i e => (s.signUps[i]?).bind fun signUp =>
    if e.uid.any (· ∈ s.accounts) then none
    else (SignUp.step { signUp with users := s.users } e).map (s.signedUp i e.uid)
  | .authChanged currentUser => some { s with currentUser := currentUser }
  | .openProfile => (ProfileVC.viewDidLoad s.currentUser).map fun vc => { s with profiles := s.profiles ++ [vc] }
  | .listener k callback => (s.profiles[k]?).bind fun vc =>
    if s.answers vc callback then (vc.listener callback).map fun vc => { s with profiles := s.profiles.set k vc }
    else none

end Members

/-! ## What the events come to -/

structure Member where
  uid : String
  firstName : String
  lastName : String

def Member.data (m : Member) : Data := userData m.firstName m.lastName m.uid

namespace Members

/-- The account that the event makes, with the names of its sign-up. -/
def created (s : Members) : MembersEvent → List Member
  | .signUp i (.createUserCompleted (some uid) _) => match (s.signUps[i]?).bind (·.call) with
    | some (.createUser firstName lastName _ _) => [⟨uid, firstName, lastName⟩]
    | _ => []
  | _ => []

/-- The account whose document the event takes back. -/
def refused (s : Members) : MembersEvent → List String
  | .signUp i (.addDocumentCompleted false) => ((s.signUps[i]?).bind (·.account)).toList
  | _ => []

end Members

def MembersEvent.tapped : MembersEvent → List SignUpVC
  | .createAccountTapped vc => [vc]
  | _ => []

end WarrantyGuard

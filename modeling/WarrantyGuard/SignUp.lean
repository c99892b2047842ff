import WarrantyGuard.Firestore
import WarrantyGuard.Regexes
import WarrantyGuard.Runs
import WarrantyGuard.Swift

/-!
# Signing up

`SignUpVC` checks its four texts, of which the password must match a regular
expression as a whole, and then makes two calls: `createUser`, and in its
completion `addDocument` to the `users` collection. That completion also goes
to Home, through a `view.window?` that is nil unless the screen is in the window.
An error label shows its text once its `alpha` is 1.

In the expression `.` is any character but a line terminator and `\d` any of the
system's Unicode decimal digits, which have ASCII's ten among them and no
punctuation.
-/

namespace WarrantyGuard

open Regexes

structure DecimalDigits where
  isDecimalDigit : Char → Bool
  ascii : ∀ c, c.toNat < 128 → isDecimalDigit c = c.isDigit
  quotation : isDecimalDigit '\u2019' = false

def isLineTerminator (c : Char) : Bool := c.toNat ∈ [0xA, 0xB, 0xC, 0xD, 0x85, 0x2028, 0x2029]

/-- What may follow `$`: the text's last line terminator. -/
def isLastTerminator : List Char → Bool
  | [c] => isLineTerminator c
  | ['\r', '\n'] => true
  | _ => false

def between (a z c : Char) : Bool := a ≤ c && c ≤ z

def punctuation : List Char := "!@#$%^&*()-_=+\x7b\x7d|?>.<,:;~`\u2019".toList

/-- `[0-9a-zA-Z!@#$%^&*()\-_=+{}|?>.<,:;~`’]` -/
def passwordSet (c : Char) : Bool :=
  between '0' '9' c || between 'a' 'z' c || between 'A' 'Z' c || punctuation.contains c

/-- `(?=.*[p])` -/
def lookAhead (p : Char → Bool) : Regex Char := .ahead (.seq (.star (.set (!isLineTerminator ·))) (.set p))

def passwordPattern (u : DecimalDigits) : Regex Char :=
  .seq .start (.seq (lookAhead u.isDecimalDigit)
    (.seq (lookAhead (between 'a' 'z')) (.seq (lookAhead (between 'A' 'Z'))
    (.seq (.atLeast 8 (.set passwordSet)) (.stop isLastTerminator)))))

structure SignUpVC where
  firstNameTextField : String
  lastNameTextField : String
  emailTextField : String
  passwordTextField : String
  errorLabel : String
  alpha : Nat

namespace SignUpVC

def isPasswordValid (u : DecimalDigits) (password : String) : Bool :=
  Regexes.isMatch (passwordPattern u) password.toList

def validateFields (u : DecimalDigits) (vc : SignUpVC) : Option String :=
  if trimmingCharacters vc.firstNameTextField = "" ∨ trimmingCharacters vc.lastNameTextField = "" ∨
      trimmingCharacters vc.emailTextField = "" ∨ trimmingCharacters vc.passwordTextField = "" then
    some "Please fill in all fields"
  else
    let cleanedPassword := trimmingCharacters vc.passwordTextField
    if isPasswordValid u cleanedPassword = false then
      some "Please make sure your password is at least 8 characters, contains a special character and number "
    else none

def showError (vc : SignUpVC) (message : String) : SignUpVC := { vc with errorLabel := message, alpha := 1 }

end SignUpVC

/-!
## From the tap to the last callback

`account` is the account that `createUser` made, `call` the call that is not yet
answered. A new account's uid is in no document of `users`; `addDocument` makes a
fresh id, shows in the collection at once and is taken back by an error. The
user may edit the fields, leave the screen and come back to it until Home has
replaced it.
-/

inductive SignUpCall where
  | createUser (firstName lastName email password : String)
  | addDocument (documentID : String)

structure SignUp where
  vc : SignUpVC
  inWindow : Bool
  isHome : Bool
  account : Option String
  users : Collection
  call : Option SignUpCall

inductive SignUpEvent where
  | fieldsChanged (firstName lastName email password : String)
  | appears (appears : Bool)
  | createUserCompleted (uid : Option String) (documentID : String)
  | addDocumentCompleted (succeeds : Bool)
  deriving DecidableEq

def userData (firstName lastName uid : String) : Data :=
  [("firstname", .string firstName), ("lastname", .string lastName), ("uid", .string uid)]

def hasUser (users : Collection) (uid : String) : Bool :=
  users.entries.any fun d : Document => d.data.string "uid" == some uid

namespace SignUp

def opened (vc : SignUpVC) (users : Collection) : SignUp := ⟨vc, true, false, none, users, none⟩

def createAccountTapped (u : DecimalDigits) (s : SignUp) : SignUp :=
  match s.vc.validateFields u with
  | some error => { s with vc := s.vc.showError error }
  | none =>
    let firstName := trimmingCharacters s.vc.firstNameTextField
    let lastName := trimmingCharacters s.vc.lastNameTextField
    let email := trimmingCharacters s.vc.emailTextField
    let password := trimmingCharacters s.vc.passwordTextField
    { s with call := some (.createUser firstName lastName email password) }

def transitionToHome (s : SignUp) : SignUp :=
  if s.inWindow then { s with isHome := true, inWindow := false } else s

section
variable (s : SignUp)

@[simp] theorem transitionToHome_vc : s.transitionToHome.vc = s.vc := by unfold transitionToHome; split <;> rfl

@[simp] theorem transitionToHome_account : s.transitionToHome.account = s.account := by
  unfold transitionToHome; split <;> rfl

@[simp] theorem transitionToHome_users : s.transitionToHome.users = s.users := by
  unfold transitionToHome; split <;> rfl

@[simp] theorem transitionToHome_call : s.transitionToHome.call = s.call := by
  unfold transitionToHome; split <;> rfl

@[simp] theorem transitionToHome_isHome : s.transitionToHome.isHome = (s.inWindow || s.isHome) := by
  unfold transitionToHome; split <;> simp_all

@[simp] theorem transitionToHome_inWindow : s.transitionToHome.inWindow = false := by
  unfold transitionToHome; split <;> simp_all

end

def createUserCompleted (s : SignUp) (firstName lastName : String) (uid : Option String) (documentID : String) :
    Option SignUp :=
  match uid with
  | none => some { s with vc := s.vc.showError "Error creating user", call := none }
  | some uid =>
    if documentID ∈ s.users ∨ hasUser s.users uid then none
    else some { s with account := some uid,
                       users := s.users.setData documentID (userData firstName lastName uid),
                       call := some (.addDocument documentID) }.transitionToHome

def addDocumentCompleted (s : SignUp) (documentID : String) (succeeds : Bool) : SignUp :=
  if succeeds then { s with call := none }
  else { s with vc := s.vc.showError "Error saving user data", users := s.users.delete documentID, call := none }

def step (s : SignUp) : SignUpEvent → Option SignUp
  | .fieldsChanged firstName lastName email password =>
    some { s with vc := { s.vc with firstNameTextField := firstName, lastNameTextField := lastName,
                                    emailTextField := email, passwordTextField := password } }
  | .appears appears => if s.isHome then none else some { s with inWindow := appears }
  | .createUserCompleted uid documentID =>
    match s.call with
    | some (.createUser firstName lastName _ _) => s.createUserCompleted firstName lastName uid documentID
    | _ => none
  | .addDocumentCompleted succeeds =>
    match s.call with
    | some (.addDocument documentID) => some (s.addDocumentCompleted documentID succeeds)
    | _ => none

def errorShown (s : SignUp) : Bool := s.vc.alpha = 1 && s.inWindow

end SignUp

end WarrantyGuard

import WarrantyGuard.Display
import WarrantyGuard.Form
import WarrantyGuard.Upload

/-!
# The way through the add screens

An Add tab is a stack: an `AddProductVC`, on it the `CameraVC` that Continue
pushes, on it the `OptionalDataVC` that Next pushes. The user touches the top
screen only and goes back by one; a screen that is covered keeps its contents, one
that is pushed is a new one. The answer about the notification settings reaches a
covered form too, and the calls of an `OptionalDataVC` go on after it has gone. All
tabs read one list of categories and save to one collection.
-/

namespace WarrantyGuard

namespace CameraVC

variable {Image : Type}

def viewDidLoad : CameraVC Image := ⟨none, none, "", 0⟩

def imagePickerController (vc : CameraVC Image) : Option Image → CameraVC Image
  | none => vc
  | some image => { vc with warrantyImageView := some image }

end CameraVC

def OptionalDataVC.viewDidLoad {Image : Type} : OptionalDataVC Image := ⟨none, none, ""⟩

/-- What is on top of the form; `vc` is the controller's place among all of them. -/
inductive Above (Image : Type) where
  | nothing
  | camera (camera : CameraVC Image)
  | optionalData (camera : CameraVC Image) (vc : Nat)

def Above.vc {Image : Type} : Above Image → Option Nat
  | .optionalData _ vc => some vc
  | _ => none

structure AddTab (Image : Type) where
  form : AddForm
  above : Above Image

structure AddFlow (Image Bytes : Type) where
  categories : List Category
  tabs : List (AddTab Image)
  uploads : Uploads Image Bytes

inductive FlowEvent (Image : Type) where
  | list (e : MirrorEvent)
  | viewDidLoad (purchase expiry : Int)
  | form (tab : Nat) (e : FormEvent)
  | warrantyPicked (tab : Nat) (originalImage : Option Image)
  | nextButtonPressed (tab : Nat)
  | back (tab : Nat)
  | upload (e : UploadEvent Image)

def FormEvent.isTouch : FormEvent → Bool
  | .notificationSettings _ => false
  | _ => true

def FlowEvent.onTab {Image : Type} : FlowEvent Image → Option Nat
  | .form tab _ => some tab
  | .warrantyPicked tab _ => some tab
  | .nextButtonPressed tab => some tab
  | .back tab => some tab
  | _ => none

namespace AddTab

variable {Image : Type}

def viewDidLoad (purchase expiry : Int) : AddTab Image := ⟨AddForm.viewDidLoad purchase expiry, .nothing⟩

/-- What Continue pushes, if its segue is performed. -/
def pushed (tab : AddTab Image) : FormEvent → Above Image
  | .continueButtonPressed =>
    match (tab.form.vc.continueButtonPressed Image).2 with
    | some product => .camera (AddProductVC.prepare CameraVC.viewDidLoad product)
    | none => .nothing
  | _ => .nothing

def formEvent (L : Locale) (categories : List Category) (tab : AddTab Image) (e : FormEvent) :
    Option (AddTab Image) :=
  match tab.above with
  | .nothing => (tab.form.step L (categories, e)).map fun form => ⟨form, tab.pushed e⟩
  | above => if e.isTouch then none else (tab.form.step L (categories, e)).map fun form => ⟨form, above⟩

def warrantyPicked (tab : AddTab Image) (originalImage : Option Image) : Option (AddTab Image) :=
  match tab.above with
  | .camera camera => some { tab with above := .camera (camera.imagePickerController originalImage) }
  | _ => none

def back (tab : AddTab Image) : Option (AddTab Image) :=
  match tab.above with
  | .optionalData camera _ => some { tab with above := .camera camera }
  | .camera _ => some { tab with above := .nothing }
  | .nothing => none

end AddTab

namespace AddFlow

variable {Image Bytes : Type}

def launch (storage : Storage Bytes) (produts : Collection) (currentUser : Option String) : AddFlow Image Bytes :=
  ⟨[], [], Uploads.launch storage produts currentUser⟩

def onTab (s : AddFlow Image Bytes) (i : Nat) (f : AddTab Image → Option (AddTab Image)) :
    Option (AddFlow Image Bytes) :=
  (s.tabs[i]?).bind fun tab => (f tab).map fun tab => { s with tabs := s.tabs.set i tab }

def nextButtonPressed (s : AddFlow Image Bytes) (i : Nat) (tab : AddTab Image) : Option (AddFlow Image Bytes) :=
  match tab.above with
  | .camera camera =>
    let r := camera.nextButtonPressed
    match r.2 with
    | none => some { s with tabs := s.tabs.set i { tab with above := .camera r.1 } }
    | some product =>
      some { s with tabs := s.tabs.set i { tab with above := .optionalData r.1 s.uploads.controllers.length },
                    uploads := { s.uploads with
                      controllers := s.uploads.controllers ++
                        [CameraVC.prepare OptionalDataVC.viewDidLoad product] } }
  | _ => none

/-- A controller is touched only on top of its tab, and made only by Next. -/
def admits (s : AddFlow Image Bytes) : UploadEvent Image → Bool
  | .viewDidLoad _ => false
  | .notesChanged vc _ => s.tabs.any (·.above.vc = some vc)
  | .imagePicked vc _ => s.tabs.any (·.above.vc = some vc)
  | .nextButtonPressed vc _ => s.tabs.any (·.above.vc = some vc)
  | _ => true

def step (L : Locale) (p : Platform Image Bytes) (s : AddFlow Image Bytes) :
    FlowEvent Image → Option (AddFlow Image Bytes)
  | .list e => (Mirror.step s.categories e).map fun categories => { s with categories := categories }
  | .viewDidLoad purchase expiry => some { s with tabs := s.tabs ++ [AddTab.viewDidLoad purchase expiry] }
  | .form i e => s.onTab i fun tab => tab.formEvent L s.categories e
  | .warrantyPicked i originalImage => s.onTab i fun tab => tab.warrantyPicked originalImage
  | .nextButtonPressed i => (s.tabs[i]?).bind fun tab => s.nextButtonPressed i tab
  | .back i => s.onTab i AddTab.back
  | .upload e => if s.admits e then (s.uploads.step p e).map fun uploads => { s with uploads := uploads } else none

/-! ## What a tab has seen -/

def openings : FlowEvent Image → Option (Int × Int)
  | .viewDidLoad purchase expiry => some (purchase, expiry)
  | _ => none

/-- What an event is to the form of tab `i`. -/
def moments (i : Nat) (s : AddFlow Image Bytes) : FlowEvent Image → List FormMoment
  | .form tab e => if tab = i then [(s.categories, e)] else []
  | _ => []

/-- What an event is to the uploads. -/
def asUpload (s : AddFlow Image Bytes) : FlowEvent Image → List (UploadEvent Image)
  | .nextButtonPressed i =>
    match (s.tabs[i]?).map AddTab.above with
    | some (.camera camera) => camera.nextButtonPressed.2.toList.map fun product => .viewDidLoad (some product)
    | _ => []
  | .upload e => [e]
  | _ => []

def picked (i : Nat) : FlowEvent Image → Option Image
  | .warrantyPicked tab originalImage => if tab = i then originalImage else none
  | _ => none

/-- The documents of the listeners' snapshots. -/
def heard : FlowEvent Image → List Document
  | .list (.listener _ (.snapshot documents)) => documents
  | _ => []

end AddFlow

end WarrantyGuard

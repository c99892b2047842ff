import WarrantyGuard.Runs
import WarrantyGuard.Product

/-!
# Saving a product

`OptionalDataVC` saves a product by a chain of calls, each started in the
completion of the one before: `putData` and `downloadURL` for the warranty
image, the same for the product image if one is shown by then, then `setData`.
A tap on Next starts one chain; the button stays enabled. What the closures
capture (`finalProduct`, the reference, the warranty's URL) is the chain's, the
image view, the notes and the signed-in user are read when a completion runs.

A `putData` stores its object when it succeeds. `setData` shows in the
collection at once; a failure takes the document out again.
-/

namespace WarrantyGuard

/-- The two children of the storage's root. -/
inductive Folder where
  | warranty
  | product
  deriving DecidableEq

structure Ref where
  folder : Folder
  name : String
  deriving DecidableEq

/-- The system's JPEG encoder at quality 0.25, and the download URL of an object. -/
structure Platform (Image Bytes : Type) where
  jpegData : Image → Option Bytes
  absoluteString : Ref → String
  absoluteString_injective : Function.Injective absoluteString
  absoluteString_ne_empty : ∀ ref, absoluteString ref ≠ ""

abbrev Storage (Bytes : Type) := AList fun _ : Ref => Bytes

structure OptionalDataVC (Image : Type) where
  product : Option (ProductComponents Image)
  productImageView : Option Image
  notesTV : String

def OptionalDataVC.imagePickerController {Image : Type} (vc : OptionalDataVC Image) :
    Option Image → OptionalDataVC Image
  | none => vc
  | some image => { vc with productImageView := some image }

/-! ## One chain

A `Stage` is the call a chain waits for; `productAdded` waits for the main queue
to run the block with `performSegue`, `performed` has run it, and `ended` has
stopped without a document. The segue presents modally, which UIKit refuses on a
controller that presents already or has left the window: a transition is a call of
`performSegue` here, whether or not a screen comes of it. A chain keeps what the
form and the session were at its tap; the code does not.
-/

inductive Stage (Bytes : Type) where
  | putWarranty (ref : Ref) (warantyImageData : Bytes)
  | warrantyURL (ref : Ref)
  | putProduct (warantyUrl : String) (ref : Ref) (productImageData : Bytes)
  | productURL (warantyUrl : String) (ref : Ref)
  | setData (id : String)
  | productAdded (id : String)
  | performed (id : String)
  | ended

structure Tap (Image : Type) where
  notes : String
  productImage : Option Image
  uid : Option String

structure Chain (Image Bytes : Type) where
  vc : Nat
  finalProduct : ProductComponents Image
  tap : Tap Image
  stage : Stage Bytes

/-- The chains of any number of controllers. `issued` are the UUIDs made so far,
`segues` the controllers that called `performSegue` for `productAdded`. -/
structure Uploads (Image Bytes : Type) where
  controllers : List (OptionalDataVC Image)
  currentUser : Option String
  storage : Storage Bytes
  produts : Collection
  issued : List String
  chains : List (Chain Image Bytes)
  segues : List Nat

inductive UploadEvent (Image : Type) where
  | viewDidLoad (product : Option (ProductComponents Image))
  | notesChanged (vc : Nat) (notes : String)
  | imagePicked (vc : Nat) (originalImage : Option Image)
  | authChanged (uid : Option String)
  | nextButtonPressed (vc : Nat) (uuid : String)
  | success (chain : Nat) (uuid : String)
  | failure (chain : Nat)

namespace Uploads

variable {Image Bytes : Type}

def launch (storage : Storage Bytes) (produts : Collection) (currentUser : Option String) :
    Uploads Image Bytes where
  controllers := []
  currentUser := currentUser
  storage := storage
  produts := produts
  issued := storage.keys.map (·.name) ++ produts.keys
  chains := []
  segues := []

def setStage (s : Uploads Image Bytes) (k : Nat) (c : Chain Image Bytes) (stage : Stage Bytes) :
    Uploads Image Bytes :=
  { s with chains := s.chains.set k { c with stage := stage } }

def nextButtonPressed (p : Platform Image Bytes) (s : Uploads Image Bytes) (i : Nat) (vc : OptionalDataVC Image)
    (uuid : String) : Uploads Image Bytes :=
  match vc.product with
  | none => s
  | some finalProduct =>
    match finalProduct.warrantyImage.bind p.jpegData with
    | none => s
    | some warantyImageData =>
      { s with issued := uuid :: s.issued,
               chains := s.chains ++ [⟨i, finalProduct, ⟨vc.notesTV, vc.productImageView, s.currentUser⟩,
                 .putWarranty ⟨.warranty, uuid⟩ warantyImageData⟩] }

def uploadProduct (s : Uploads Image Bytes) (k : Nat) (c : Chain Image Bytes) (vc : OptionalDataVC Image)
    (warrantyUrl productUrl uuid : String) : Uploads Image Bytes :=
  { s with issued := uuid :: s.issued,
           produts := s.produts.setData uuid
             (productData c.finalProduct vc.notesTV warrantyUrl productUrl s.currentUser) }.setStage
    k c (.setData uuid)

/-- The call that chain `k` waits for completes without an error. -/
def succeed (p : Platform Image Bytes) (s : Uploads Image Bytes) (k : Nat) (c : Chain Image Bytes)
    (vc : OptionalDataVC Image) (uuid : String) : Option (Uploads Image Bytes) :=
  match c.stage with
  | .putWarranty ref warantyImageData =>
    some ({ s with storage := s.storage.insert ref warantyImageData }.setStage k c (.warrantyURL ref))
  | .warrantyURL ref =>
    match vc.productImageView with
    | none => some (s.uploadProduct k c vc (p.absoluteString ref) "" uuid)
    | some image =>
      match p.jpegData image with
      | none => some (s.setStage k c .ended)
      | some productImageData =>
        some ({ s with issued := uuid :: s.issued }.setStage k c
          (.putProduct (p.absoluteString ref) ⟨.product, uuid⟩ productImageData))
  | .putProduct warantyUrl ref productImageData =>
    some ({ s with storage := s.storage.insert ref productImageData }.setStage k c (.productURL warantyUrl ref))
  | .productURL warantyUrl ref => some (s.uploadProduct k c vc warantyUrl (p.absoluteString ref) uuid)
  | .setData id => some (s.setStage k c (.productAdded id))
  | .productAdded id => some ({ s with segues := c.vc :: s.segues }.setStage k c (.performed id))
  | .performed _ => none
  | .ended => none

def fail (s : Uploads Image Bytes) (k : Nat) (c : Chain Image Bytes) : Option (Uploads Image Bytes) :=
  match c.stage with
  | .setData id => some ({ s with produts := s.produts.delete id }.setStage k c .ended)
  | .productAdded _ => none
  | .performed _ => none
  | .ended => none
  | _ => some (s.setStage k c .ended)

def step (p : Platform Image Bytes) (s : Uploads Image Bytes) : UploadEvent Image → Option (Uploads Image Bytes)
  | .viewDidLoad product => some { s with controllers := s.controllers ++ [⟨product, none, ""⟩] }
  | .notesChanged i notes =>
    (s.controllers[i]?).map fun vc => { s with controllers := s.controllers.set i { vc with notesTV := notes } }
  | .imagePicked i originalImage =>
    (s.controllers[i]?).map fun vc =>
      { s with controllers := s.controllers.set i (vc.imagePickerController originalImage) }
  | .authChanged uid => some { s with currentUser := uid }
  | .nextButtonPressed i uuid =>
    if uuid ∈ s.issued then none else (s.controllers[i]?).map fun vc => s.nextButtonPressed p i vc uuid
  | .success k uuid =>
    if uuid ∈ s.issued then none
    else (s.chains[k]?).bind fun c => (s.controllers[c.vc]?).bind fun vc => s.succeed p k c vc uuid
  | .failure k => (s.chains[k]?).bind fun c => s.fail k c

end Uploads

/-! ## What a chain has made -/

def Stage.document {Bytes : Type} : Stage Bytes → Option String
  | .setData id => some id
  | .productAdded id => some id
  | .performed id => some id
  | _ => none

def Chain.document {Image Bytes : Type} (c : Chain Image Bytes) : Option String := c.stage.document

def Stage.isPerformed {Bytes : Type} : Stage Bytes → Bool
  | .performed _ => true
  | _ => false

def UploadEvent.taps {Image : Type} (i : Nat) : UploadEvent Image → Bool
  | .nextButtonPressed vc _ => vc = i
  | _ => false

end WarrantyGuard

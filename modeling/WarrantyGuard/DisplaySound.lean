import WarrantyGuard.DetailSound
import WarrantyGuard.Display
import WarrantyGuard.SearchSound

/-!
# A saved product reads back as it was entered

The product is packed three times on its way and decoded by two screens; the
texts of the form, the notes and the two URLs arrive unchanged, for the user who
saved it and for no other.
-/

namespace WarrantyGuard

open Uploads

/-- The product as the form, the notes and the two uploads have it. -/
def entered (form : AddProductVC) (notes warrantyUrl productUrl : String) : Product where
  productName := some form.productNameTextField
  purchaseDate := some form.purchaseDateTextField
  expiryDate := some form.expiryDateTextField
  category := some form.categoryTextField
  warrantyImage := some warrantyUrl
  productImage := some productUrl
  warrantyNots := some notes

/-- The labels are the product's texts, the image its warranty's; notes that are empty stay hidden. -/
structure Displayed (product : Product) (vc : DisplayVC) : Prop where
  productNameLabel : vc.productNameLabel = product.productName
  purchaseDateLabel : vc.purchaseDateLabel = product.purchaseDate
  expiryDateLabel : vc.expiryDateLabel = product.expiryDate
  warrantyImageView : some vc.warrantyImageView = product.warrantyImage
  isHidden : vc.isHidden = true ↔ product.warrantyNots = some ""
  notesTV : vc.isHidden = false → vc.notesTV = product.warrantyNots

theorem viewDidLoad_displayed {product : Product} {vc : DisplayVC}
    (h : DisplayVC.viewDidLoad (some product) = some vc) :
    Displayed product vc := by
  obtain ⟨url, hurl, rfl⟩ := Option.map_eq_some_iff.mp h
  have hurl : product.warrantyImage = some url := hurl
  by_cases hn : product.warrantyNots = some ""
  · simp only [Option.bind_some, hn, ne_eq, not_true_eq_false, if_false]
    exact ⟨rfl, rfl, rfl, hurl.symm, iff_of_true rfl hn, nofun⟩
  · simp only [Option.bind_some, ne_eq, hn, not_false_eq_true, if_true]
    exact ⟨rfl, rfl, rfl, hurl.symm, iff_of_false Bool.false_ne_true hn, fun _ => rfl⟩

theorem displayProduct_isSome (product : Product) :
    (DisplayVC.viewDidLoad (some product)).isSome ↔ product.warrantyImage.isSome := by
  simp [DisplayVC.viewDidLoad, DisplayVC.displayProduct]

/-- The screens show the document `d` of the collection as `product`, in its category
only, to `user` only, and without a trap. -/
structure ShownAs (product : Product) (category user : String) (produts : Collection) (d : Document) : Prop where
  documents : d ∈ produts.documents
  whereField (category' : String) : d ∈ produts.whereField "category" (.string category') ↔ category' = category
  getProductForCategory (vc : DetailVC) (userID : String) (h : vc.userID = some userID) :
    (vc.getProductForCategory (.snapshot [d])).products = vc.products ++ if userID = user then [product] else []
  getProducts (ops : StringOps) (vc : SearchVC) (query : Query) : ∃ name vc', product.productName = some name ∧
    vc.getProducts ops query (.snapshot [d]) = some vc' ∧
    vc'.products =
      if query.userID = user ∧ ops.contains (ops.lowercased name) (ops.lowercased query.searchText) then
        [product]
      else []
  displayProduct : ∃ vc, DisplayVC.viewDidLoad (some product) = some vc ∧ Displayed product vc

section
variable {product : Product} {category user name : String} {d : Document}

theorem isOwn_iff (huser : d.data.string "userID" = some user) {userID : String} :
    isOwn userID d ↔ userID = user := by
  rw [isOwn, huser, beq_iff_eq, Option.some_inj, eq_comm]

theorem mirror_singleton (hproduct : Product.ofData d.data = product) (huser : d.data.string "userID" = some user)
    (userID : String) : mirror userID [d] = if userID = user then [product] else [] := by
  rw [mirror, List.filter_cons, List.filter_nil]
  by_cases h : userID = user
  · rw [if_pos ((isOwn_iff huser).mpr h), if_pos h, ← hproduct]; rfl
  · rw [if_neg ((isOwn_iff huser).not.mpr h), if_neg h]; rfl

theorem found_singleton (hproduct : Product.ofData d.data = product) (huser : d.data.string "userID" = some user)
    (hname : d.data.string "productName" = some name) (ops : StringOps) (query : Query) :
    found ops query (.snapshot [d]) =
      if query.userID = user ∧ ops.contains (ops.lowercased name) (ops.lowercased query.searchText) then
        [product]
      else [] := by
  have hmatch : isMatch ops query d ↔
      query.userID = user ∧ ops.contains (ops.lowercased name) (ops.lowercased query.searchText) := by
    rw [isMatch, hname, Option.any_some, Bool.and_eq_true, isOwn_iff huser, and_comm]
  rw [found, List.filter_cons, List.filter_nil]
  by_cases h : isMatch ops query d = true
  · rw [if_pos h, if_pos (hmatch.mp h), ← hproduct]; rfl
  · rw [if_neg h, if_neg (hmatch.not.mp h)]; rfl

theorem shownAs_of_data {produts : Collection} (hlookup : produts.lookup d.id = some d.data)
    (hproduct : Product.ofData d.data = product) (huser : d.data.string "userID" = some user)
    (hcategory : d.data.lookup "category" = some (.string category)) (hname : product.productName.isSome)
    (himage : product.warrantyImage.isSome) : ShownAs product category user produts d where
  documents := mem_documents.mpr hlookup
  whereField category' := by
    rw [mem_whereField, hcategory]
    simp [hlookup, eq_comm]
  getProductForCategory vc userID h := by rw [getProductForCategory_snapshot h, mirror_singleton hproduct huser]
  getProducts ops vc query := by
    obtain ⟨name, hname⟩ := Option.isSome_iff_exists.mp hname
    have hd : d.data.string "productName" = some name := by rw [← hname, ← hproduct]; rfl
    obtain ⟨vc', hvc⟩ := Option.isSome_iff_exists.mp
      ((getProducts_isSome ops vc query [d]).mpr fun i hi => by rw [List.mem_singleton.mp hi, hd]; rfl)
    exact ⟨name, vc', hname, hvc, (getProducts_snapshot hvc).1.trans (found_singleton hproduct huser hd ops query)⟩
  displayProduct := by
    obtain ⟨vc, hvc⟩ := Option.isSome_iff_exists.mp ((displayProduct_isSome product).mpr himage)
    exact ⟨vc, hvc, viewDidLoad_displayed hvc⟩

end

theorem saved_product_reads_back {Image Bytes : Type} {form : AddProductVC} {camera : CameraVC Image}
    {image : Image} (hform : form.validateFields = none) (himage : camera.warrantyImageView = some image) :
    ∃ finalProduct, packed form camera = some finalProduct ∧
      ∀ (s : Uploads Image Bytes) (k : Nat) (c : Chain Image Bytes) (vc : OptionalDataVC Image)
        (warrantyUrl productUrl uuid user : String),
        (CameraVC.prepare vc finalProduct).product = some c.finalProduct → s.currentUser = some user →
        ∃ data, ShownAs (entered form vc.notesTV warrantyUrl productUrl) form.categoryTextField user
          (s.uploadProduct k c vc warrantyUrl productUrl uuid).produts ⟨uuid, data⟩ := by
  let product : ProductComponents Image := ⟨some form.productNameTextField, some form.purchaseDateTextField,
    some form.expiryDateTextField, some form.categoryTextField, some image, none, none⟩
  have hpacked : packed form camera = some product := by
    simp [packed, AddProductVC.continueButtonPressed, hform, AddProductVC.prepare,
      CameraVC.nextButtonPressed, himage, product]
  refine ⟨product, hpacked, fun s k c vc warrantyUrl productUrl uuid user hc hu => ?_⟩
  have hfinal : c.finalProduct = product := (Option.some.inj hc).symm
  refine ⟨productData c.finalProduct vc.notesTV warrantyUrl productUrl s.currentUser,
    shownAs_of_data (AList.lookup_insert _) ?_ ?_ ?_ rfl rfl⟩
  · rw [hfinal]; exact ofData_productData ..
  · rw [← hu]; exact productData_userID ..
  · rw [hfinal]; rfl

def teaForm : AddProductVC := ⟨"Tea pot", "Dec 21, 2021", "Dec 21, 2022", "Kitchen", 0, 365, "", 0⟩

def teaReceipt : CameraVC String := ⟨none, some "receipt", "", 0⟩

/-- The chain that saves what the two screens send on. -/
def teaChain : Chain String String where
  vc := 0
  finalProduct := ⟨some "Tea pot", some "Dec 21, 2021", some "Dec 21, 2022", some "Kitchen",
    some "receipt", none, none⟩
  tap := ⟨"", none, some "u"⟩
  stage := .warrantyURL ⟨.warranty, "A"⟩

theorem saved_product_reads_back_tea : ∃ data,
    ShownAs (entered teaForm "blue" "https://receipt" "") "Kitchen" "u"
      ((launch ∅ ∅ (some "u")).uploadProduct 0 teaChain ⟨some teaChain.finalProduct, none, "blue"⟩
        "https://receipt" "" "d").produts ⟨"d", data⟩ := by
  obtain ⟨finalProduct, hpacked, h⟩ :=
    @saved_product_reads_back String String teaForm teaReceipt "receipt" (by decide) rfl
  obtain rfl : teaChain.finalProduct = finalProduct := Option.some.inj hpacked
  exact h (launch ∅ ∅ (some "u")) 0 teaChain ⟨some teaChain.finalProduct, none, "blue"⟩
    "https://receipt" "" "d" "u" rfl rfl

end WarrantyGuard

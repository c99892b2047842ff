import WarrantyGuard.AddFlowSound
import WarrantyGuard.Shelf

/-!
# The app keeps a shelf

Every run of the add screens over a collection that holds a shelf is a run of that
shelf: the collection holds one again, with all that was on it before. The screens
that read the collection show what the shelf says, whoever looks.
-/

namespace WarrantyGuard

open WarrantyGuard.Shelf

/-! ## What the screens read -/

theorem ofData_data (w : Warranty) : Product.ofData w.data = w.product := ofData_productData ..

theorem userID_data (w : Warranty) : w.data.string "userID" = w.userID := productData_userID ..

/-- The dictionary of a warranty says all of it. -/
theorem data_injective : Function.Injective Warranty.data := by
  intro w w' h
  have hproduct : w.product = w'.product := by rw [← ofData_data, ← ofData_data, h]
  have huser : w.userID = w'.userID := by rw [← userID_data, ← userID_data, h]
  cases w
  cases w'
  simp_all [Warranty.product]

theorem isOwn_data {id user : String} {w : Warranty} : isOwn user ⟨id, w.data⟩ ↔ w.userID = some user := by
  rw [isOwn, beq_iff_eq]
  exact Eq.congr_left (userID_data w)

theorem documents_collection (t : Shelf) :
    t.collection.documents = (t.entries.insertionSort fun a b => a.1 ≤ b.1).map fun e => ⟨e.1, e.2.data⟩ :=
  (List.map_insertionSort (fun a b : Σ _ : String, Warranty => a.1 ≤ b.1) (fun a b : Document => a.id ≤ b.id)
    (fun e => ⟨e.1, e.2.data⟩) t.entries fun _ _ _ _ => Iff.rfl).symm

/-- A choice among the documents that says what a choice among the warranties says. -/
theorem filter_documents {t : Shelf} {q : Document → Bool} {q' : Warranty → Bool}
    (h : ∀ id w, q ⟨id, w.data⟩ = q' w) :
    (t.collection.documents.filter q).map (Product.ofData ·.data)
      = (t.warranties.filter q').map Warranty.product := by
  rw [documents_collection, warranties, List.filter_map, List.filter_map, List.map_map, List.map_map]
  have hq : (q ∘ fun e : Σ _ : String, Warranty => (⟨e.1, e.2.data⟩ : Document)) = q' ∘ fun e => e.2 := by
    funext e
    exact h e.1 e.2
  have hproduct :
      ((fun d : Document => Product.ofData d.data) ∘ fun e : Σ _ : String, Warranty => ⟨e.1, e.2.data⟩) =
        Warranty.product ∘ fun e => e.2 := by
    funext e
    exact ofData_data e.2
  rw [hq, hproduct]

/-- **What the screens show.** -/
theorem screens_show_shelf (t : Shelf) :
    (∀ category user, ((DetailVC.viewDidLoad category (some user)).getProductForCategory
      (.snapshot (t.collection.whereField "category" (.string category)))).products =
        (t.inCategory category user).map Warranty.product) ∧
    (∀ ops vc query, ∃ vc', SearchVC.getProducts ops vc query (.snapshot t.collection.documents) = some vc' ∧
      vc'.products = (t.matching ops query).map Warranty.product) ∧
    ∀ w ∈ t.warranties, (DisplayVC.viewDidLoad (some w.product)).isSome := by
  refine ⟨fun category user => ?_, fun ops vc query => ?_, fun w _ => rfl⟩
  · rw [getProductForCategory_snapshot rfl, DetailVC.viewDidLoad, List.nil_append, mirror, Collection.whereField,
      List.filter_filter]
    apply filter_documents
    intro id w
    apply Bool.eq_iff_iff.mpr
    rw [Bool.and_eq_true, isOwn_data, decide_eq_true_eq, decide_eq_true_eq, and_comm]
    apply and_congr_left
    intro _
    show some (Value.string w.category) = _ ↔ _
    simp
  · have hname : ∀ d ∈ t.collection.documents, (d.data.string "productName").isSome := by
      intro d hd
      rw [documents_collection] at hd
      obtain ⟨e, -, rfl⟩ := List.mem_map.mp hd
      rfl
    obtain ⟨vc', hvc⟩ :=
      Option.isSome_iff_exists.mp ((getProducts_isSome ops vc query t.collection.documents).mpr hname)
    refine ⟨vc', hvc, (getProducts_snapshot hvc).1.trans (filter_documents ?_)⟩
    intro id w
    apply Bool.eq_iff_iff.mpr
    rw [isMatch, decide_eq_true_eq]
    show (some w.productName).any _ ↔ _
    rw [Option.any_some, Bool.and_eq_true, isOwn_data]

/-! ## What the app writes -/

theorem collection_put {t : Shelf} {id : String} (h : id ∉ t) (w : Warranty) :
    Shelf.collection (t.insert id w) = t.collection.setData id w.data :=
  Listing.mapValues_insert Warranty.data t h w

theorem collection_takeBack (t : Shelf) (id : String) : Shelf.collection (t.erase id) = t.collection.delete id :=
  Listing.mapValues_erase Warranty.data t id

theorem mem_collection {t : Shelf} {id : String} : id ∈ t.collection ↔ id ∈ t :=
  Listing.mem_mapValues Warranty.data t id

theorem lookup_collection (t : Shelf) (id : String) : t.collection.lookup id = (t.lookup id).map Warranty.data :=
  Listing.lookup_mapValues Warranty.data t id

theorem warranty_of_form {Image : Type} {form : AddProductVC} (h : form.validateFields = none) (image : Image)
    (notes productUrl : String) (uid : Option String) {warrantyUrl : String} (hurl : warrantyUrl ≠ "") :
    ∃ w : Warranty, w.data = productData (collected form image) notes warrantyUrl productUrl uid := by
  obtain ⟨h₁, h₂, h₃, h₄⟩ := (validateFields_iff form).mp h
  exact ⟨⟨_, _, _, _, warrantyUrl, productUrl, notes, uid, h₁, h₂, h₃, h₄, hurl⟩, rfl⟩

section
variable {Image Bytes : Type} {p : Platform Image Bytes}

/-- An event leaves the collection as it is, writes a chain's record under a new id, or
takes one back. -/
inductive Writes (p : Platform Image Bytes) (s : Uploads Image Bytes) : Collection → Prop
  | same : Writes p s s.produts
  | wrote {c : Chain Image Bytes} {id : String} (hc : c ∈ s.chains) (hid : id ∉ s.produts)
      (notes productUrl : String) (ref : Ref) (uid : Option String) :
      Writes p s (s.produts.setData id (productData c.finalProduct notes (p.absoluteString ref) productUrl uid))
  | rolledBack {id : String} (hid : id ∈ s.produts) : Writes p s (s.produts.delete id)

theorem writes_step {s s' : Uploads Image Bytes} {storage : Storage Bytes} {produts : Collection}
    {up : Nat → List (Ref × Bytes)} (hi : Inv produts s) (hl : Linked p storage s up) {e : UploadEvent Image}
    (h : s.step p e = some s') : Writes p s s'.produts := by
  cases step_change h with
  | screen | started => exact .same
  | @hop k c _ hc hhop =>
    cases hhop with
    | @wrote vc warrantyUrl productUrl uuid hvc hcalls huuid =>
      have hid : uuid ∉ s.produts := fun hmem => huuid (hi.collection.issued uuid hmem)
      have hstage := trail_stage (hl.trails k c hc)
      generalize c.stage = st at hcalls hstage
      cases hcalls with
      | without ref => exact .wrote (List.mem_of_getElem? hc) hid vc.notesTV "" ref s.currentUser
      | having _ ref =>
        obtain ⟨x, -, rfl, -⟩ := hstage
        exact .wrote (List.mem_of_getElem? hc) hid vc.notesTV (p.absoluteString ref) x.1 s.currentUser
    | stored | named | acknowledged | performed | unencodable => exact .same
  | @stop k c _ hc hstop =>
    cases hstop with
    | stopped => exact .same
    | rolledBack hst =>
      refine .rolledBack ((hi.collection.documents _).mpr (.inr ⟨c, List.mem_of_getElem? hc, ?_⟩))
      rw [Chain.document, hst]; rfl

variable {L : Locale} {storage : Storage Bytes} {produts : Collection} {currentUser : Option String}
  {s s' : AddFlow Image Bytes} {e : FlowEvent Image}

theorem flow_writes {es : List (FlowEvent Image)}
    (hrun : Runs.run (AddFlow.step L p) (AddFlow.launch storage produts currentUser) es = some s)
    (h : s.step L p e = some s') : Writes p s.uploads s'.uploads.produts := by
  cases flow_turn h with
  | list | opened | turned | pushed => exact .same
  | upload _ hu =>
    obtain ⟨hi, hl⟩ := linked_run (uploads_run hrun)
    exact writes_step hi hl hu

/-- The app has come to `s` and its collection holds the shelf `t`. -/
def Holds (L : Locale) (p : Platform Image Bytes) (storage : Storage Bytes) (produts : Collection)
    (currentUser : Option String) (s : AddFlow Image Bytes) (t : Shelf) : Prop :=
  (∃ es, Runs.run (AddFlow.step L p) (AddFlow.launch storage produts currentUser) es = some s) ∧
    s.uploads.produts = t.collection

theorem holds_step {t : Shelf} (hs : Holds L p storage produts currentUser s t) (h : s.step L p e = some s') :
    ∃ es' t', Runs.run Shelf.step t es' = some t' ∧ Holds L p storage produts currentUser s' t' := by
  obtain ⟨⟨es, hrun⟩, ht⟩ := hs
  have hrun' : Runs.run (AddFlow.step L p) (AddFlow.launch storage produts currentUser) (es ++ [e]) = some s' := by
    rw [Runs.run_append, hrun, Option.bind_some, Runs.run_cons_some _ h, Runs.run]
  have hw := flow_writes hrun h
  generalize hproduts : s'.uploads.produts = produts' at hw
  cases hw with
  | same => exact ⟨[], t, rfl, ⟨_, hrun'⟩, hproduts.trans ht⟩
  | @wrote c id hc hid notes productUrl ref uid =>
    obtain ⟨form, image, -, hvalid, hproduct⟩ := handed_form ((sourced_run hrun).chains c hc)
    obtain ⟨w, hw⟩ := warranty_of_form hvalid image notes productUrl uid (p.absoluteString_ne_empty ref)
    rw [ht, mem_collection] at hid
    refine ⟨[.put id w], t.insert id w, ?_, ⟨_, hrun'⟩, ?_⟩
    · rw [Runs.run, Shelf.step, if_neg hid]; rfl
    · rw [hproduts, collection_put hid, hw, hproduct, ht]
  | @rolledBack id hid =>
    rw [ht, mem_collection] at hid
    refine ⟨[.takeBack id], t.erase id, ?_, ⟨_, hrun'⟩, ?_⟩
    · rw [Runs.run, Shelf.step, if_pos hid]; rfl
    · rw [hproduts, collection_takeBack, ht]

end

/-- **The app keeps a shelf.** What the add screens make of a collection with a shelf in
it is a run of that shelf: nothing that was on it goes, and what the "product added"
segue has been called for is on it. -/
theorem flow_refines_shelf {Image Bytes : Type} (L : Locale) (p : Platform Image Bytes) (storage : Storage Bytes)
    (t : Shelf) (currentUser : Option String) (es : List (FlowEvent Image)) {s : AddFlow Image Bytes}
    (hrun : Runs.run (AddFlow.step L p) (AddFlow.launch storage t.collection currentUser) es = some s) :
    ∃ es' t', Runs.run Shelf.step t es' = some t' ∧ s.uploads.produts = t'.collection ∧
      (∀ id w, t.lookup id = some w → t'.lookup id = some w) ∧
      ∀ c ∈ s.uploads.chains, ∀ id, c.stage = .performed id → ∃ w, t'.lookup id = some w ∧
        c.finalProduct.productName = some w.productName ∧ c.finalProduct.purchaseDate = some w.purchaseDate ∧
        c.finalProduct.expiryDate = some w.expiryDate ∧ c.finalProduct.category = some w.category := by
  obtain ⟨es', t', hrun', -, ht'⟩ := Runs.run_sim (R := Holds L p storage t.collection currentUser)
    (fun _ _ _ _ hs h => holds_step hs h) ⟨⟨[], rfl⟩, rfl⟩ hrun
  have hkept := kept_run (uploads_run hrun)
  refine ⟨es', t', hrun', ht', fun id w hw => ?_, fun c hc id hst => ?_⟩
  · have hid : id ∈ t.collection := mem_collection.mpr (AList.lookup_isSome.mp (by rw [hw]; rfl))
    have hsame : s.uploads.produts.lookup id = t.collection.lookup id := hkept.launched id hid
    rw [ht', lookup_collection, lookup_collection, hw] at hsame
    obtain ⟨w', hw', hdata⟩ := Option.map_eq_some_iff.mp hsame
    rw [hw', data_injective hdata]
  · obtain ⟨notes, warrantyUrl, productUrl, uid, hrecord, -⟩ :=
      hkept.recorded c hc id (by rw [Chain.document, hst]; rfl)
    rw [ht', lookup_collection] at hrecord
    obtain ⟨w, hw, hdata⟩ := Option.map_eq_some_iff.mp hrecord
    have hproduct := congrArg Product.ofData hdata
    rw [ofData_data, ofData_productData] at hproduct
    refine ⟨w, hw, ?_, ?_, ?_, ?_⟩
    · exact (congrArg Product.productName hproduct).symm
    · exact (congrArg Product.purchaseDate hproduct).symm
    · exact (congrArg Product.expiryDate hproduct).symm
    · exact (congrArg Product.category hproduct).symm

def teaPot : Warranty where
  productName := "Tea pot"
  purchaseDate := "Dec 21, 2021"
  expiryDate := "Dec 21, 2022"
  category := "Kitchen"
  warrantyImage := "w"
  productImage := ""
  warrantyNots := ""
  userID := some "v"
  productName_filled := by decide
  purchaseDate_filled := by decide
  expiryDate_filled := by decide
  category_filled := by decide
  warrantyImage_ne := by decide

/-- The phone is saved and `performSegue` called, beside another user's tea pot. -/
theorem flow_refines_shelf_phone : ∃ s c es' t' w,
    Runs.run (AddFlow.step en_US textImages)
        (AddFlow.launch ∅ (Shelf.collection (AList.singleton "T" teaPot)) (some "u"))
        (phoneFlow ++ [.upload (.success 0 "E")]) = some s ∧
      s.uploads.chains[0]? = some c ∧ c.stage = .performed "C" ∧
      Runs.run Shelf.step (AList.singleton "T" teaPot) es' = some t' ∧ s.uploads.produts = t'.collection ∧
      t'.lookup "T" = some teaPot ∧ t'.lookup "C" = some w ∧ c.finalProduct.productName = some w.productName := by
  obtain ⟨s, c, hs, hc, hst⟩ : ∃ s c, Runs.run (AddFlow.step en_US textImages)
      (AddFlow.launch ∅ (Shelf.collection (AList.singleton "T" teaPot)) (some "u"))
      (phoneFlow ++ [.upload (.success 0 "E")]) = some s ∧ s.uploads.chains[0]? = some c ∧
        c.stage = .performed "C" :=
    ⟨_, _, rfl, rfl, rfl⟩
  obtain ⟨es', t', hrun', hproduts, hstays, hdone⟩ :=
    flow_refines_shelf en_US textImages ∅ (AList.singleton "T" teaPot) (some "u") _ hs
  obtain ⟨w, hw, hname, -⟩ := hdone c (List.mem_of_getElem? hc) "C" hst
  exact ⟨s, c, es', t', w, hs, hc, hst, hrun', hproduts, hstays "T" teaPot rfl, hw, hname⟩

end WarrantyGuard

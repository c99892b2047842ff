import WarrantyGuard.LinkSound

/-!
# The documents as records

A document of the collection is one that was there at the launch, as it was, or
the record of a chain: the product that the chain's controller was sent, with the
URL of its warranty image, the product image shown when that URL came, and the
notes and the user of the moment at which it was written.
-/

namespace WarrantyGuard

open Uploads

section
variable {Image Bytes : Type} {p : Platform Image Bytes} {s s' : Uploads Image Bytes} {k : Nat}
  {c : Chain Image Bytes} {storage : Storage Bytes} {produts : Collection} {currentUser : Option String}
  {es : List (UploadEvent Image)}

/-- The completion `e` of a chain with this product puts the document `id` into the collection, while
the chain's controller has these notes and `uid` is signed in. -/
def PutsRecord (p : Platform Image Bytes) (product : ProductComponents Image) (notes : String)
    (uid : Option String) (id : String) (s : Uploads Image Bytes) (e : UploadEvent Image) : Prop :=
  ∃ k uuid c vc s', e = .success k uuid ∧ s.chains[k]? = some c ∧ c.finalProduct = product ∧
    s.controllers[c.vc]? = some vc ∧ vc.notesTV = notes ∧ s.currentUser = uid ∧
    id ∉ s.produts ∧ s.step p e = some s' ∧ id ∈ s'.produts

/-- The completion `e` brings a chain the URL of its warranty object `ref`, while the chain's controller
shows this product image. -/
def FindsImage (ref : Ref) (shown : Option Image) (s : Uploads Image Bytes) (e : UploadEvent Image) : Prop :=
  ∃ k uuid c vc, e = .success k uuid ∧ s.chains[k]? = some c ∧ c.stage = .warrantyURL ref ∧
    s.controllers[c.vc]? = some vc ∧ vc.productImageView = shown

/-- `productUrl` is that of the product image that was shown when `warrantyUrl` came. -/
def ImageFound (p : Platform Image Bytes) (s₀ : Uploads Image Bytes) (es : List (UploadEvent Image))
    (storage : Storage Bytes) (warrantyUrl productUrl : String) : Prop :=
  ∃ ref shown, warrantyUrl = p.absoluteString ref ∧ ShowsImage p storage shown productUrl ∧
    Runs.Meets (Uploads.step p) (FindsImage ref shown) s₀ es

/-- So it is for the image that a chain is uploading, once it is stored. -/
def Pictured (p : Platform Image Bytes) (s₀ : Uploads Image Bytes) (es : List (UploadEvent Image))
    (storage : Storage Bytes) (c : Chain Image Bytes) : Prop :=
  match c.stage with
  | .putProduct warantyUrl ref data =>
    ImageFound p s₀ es (storage.insert ref data) warantyUrl (p.absoluteString ref)
  | .productURL warantyUrl ref => ImageFound p s₀ es storage warantyUrl (p.absoluteString ref)
  | _ => True

def Records (p : Platform Image Bytes) (s₀ : Uploads Image Bytes) (es : List (UploadEvent Image))
    (storage : Storage Bytes) (produts : Collection) (c : Chain Image Bytes) : Prop :=
  ∀ id, c.document = some id → ∃ notes warrantyUrl productUrl uid,
    produts.lookup id = some (productData c.finalProduct notes warrantyUrl productUrl uid) ∧
      ImageFound p s₀ es storage warrantyUrl productUrl ∧
      Runs.Meets (Uploads.step p) (PutsRecord p c.finalProduct notes uid id) s₀ es

/-- What was there at the launch is as it was, and the chains' documents are their records. -/
structure Kept (p : Platform Image Bytes) (s₀ : Uploads Image Bytes) (es : List (UploadEvent Image))
    (s : Uploads Image Bytes) : Prop where
  launched : ∀ id ∈ s₀.produts, s.produts.lookup id = s₀.produts.lookup id
  recorded : ∀ c ∈ s.chains, Records p s₀ es s.storage s.produts c
  pictured : ∀ c ∈ s.chains, Pictured p s₀ es s.storage c

section
variable {s₀ : Uploads Image Bytes} {storage' : Storage Bytes}

theorem extends_insert (h : Extends storage storage') (ref : Ref) (data : Bytes) :
    Extends (storage.insert ref data) (storage'.insert ref data) := by
  intro r d hd
  by_cases hr : r = ref
  · subst hr
    rw [AList.lookup_insert] at hd ⊢
    exact hd
  · rw [AList.lookup_insert_ne hr] at hd ⊢
    exact h r d hd

theorem imageFound_frame (hstorage : Extends storage storage') {warrantyUrl productUrl : String}
    (h : ImageFound p s₀ es storage warrantyUrl productUrl) (e : UploadEvent Image) :
    ImageFound p s₀ (es ++ [e]) storage' warrantyUrl productUrl := by
  obtain ⟨ref, shown, hurl, hshown, hfound⟩ := h
  exact ⟨ref, shown, hurl, showsImage_mono hstorage hshown, Runs.meets_append_left _ hfound [e]⟩

theorem pictured_frame (hstorage : Extends storage storage') (h : Pictured p s₀ es storage c)
    (e : UploadEvent Image) : Pictured p s₀ (es ++ [e]) storage' c := by
  unfold Pictured at h ⊢
  split at h
  · exact imageFound_frame (extends_insert hstorage _ _) h e
  · exact imageFound_frame hstorage h e
  · trivial

theorem records_none (h : c.document = none) : Records p s₀ es storage produts c := by
  intro id hid
  cases h.symm.trans hid

theorem records_frame {produts' : Collection} (hstorage : Extends storage storage')
    (h : ∀ id, c.document = some id → produts'.lookup id = produts.lookup id)
    (hr : Records p s₀ es storage produts c) (e : UploadEvent Image) :
    Records p s₀ (es ++ [e]) storage' produts' c := by
  intro id hid
  obtain ⟨notes, warrantyUrl, productUrl, uid, hlookup, himage, hwrites⟩ := hr id hid
  exact ⟨notes, warrantyUrl, productUrl, uid, (h id hid).trans hlookup, imageFound_frame hstorage himage e,
    Runs.meets_append_left _ hwrites [e]⟩

/-- The other chains keep their images, the chain has its own. -/
theorem pictured_moved {e : UploadEvent Image} (hk : Kept p s₀ es s) (hc : s.chains[k]? = some c)
    {c' : Chain Image Bytes} (hchains : s'.chains = s.chains.set k c') (hstorage : Extends s.storage s'.storage)
    (h : Pictured p s₀ (es ++ [e]) s'.storage c') : ∀ d ∈ s'.chains, Pictured p s₀ (es ++ [e]) s'.storage d := by
  rw [hchains]
  exact (Listing.forall_mem_set_iff hc _).mpr
    ⟨h, fun d hd => pictured_frame hstorage (hk.pictured d (List.mem_of_mem_eraseIdx hd)) e⟩

theorem kept_moved {e : UploadEvent Image} (hk : Kept p s₀ es s) (hc : s.chains[k]? = some c) {stage : Stage Bytes}
    (hchains : s'.chains = s.chains.set k { c with stage := stage }) (hstorage : Extends s.storage s'.storage)
    (hproduts : s'.produts = s.produts) (h : ∀ id, stage.document = some id → c.document = some id)
    (himage : Pictured p s₀ (es ++ [e]) s'.storage { c with stage := stage }) : Kept p s₀ (es ++ [e]) s' := by
  refine ⟨by rw [hproduts]; exact hk.launched, ?_, pictured_moved hk hc hchains hstorage himage⟩
  rw [hchains, hproduts]
  refine Listing.forall_mem_set (fun d hd => records_frame hstorage (fun _ _ => rfl) (hk.recorded d hd) e) ?_
  intro id hid
  exact records_frame hstorage (fun _ _ => rfl) (hk.recorded c (List.mem_of_getElem? hc)) e id (h id hid)

theorem kept_stored {ref : Ref} {data : Bytes} {stage : Stage Bytes} (hi : Inv s₀.produts s) (hk : Kept p s₀ es s)
    (hc : s.chains[k]? = some c) (h : c.stage.Stores ref data stage) (e : UploadEvent Image) :
    Kept p s₀ (es ++ [e]) ({ s with storage := s.storage.insert ref data }.setStage k c stage) := by
  have hcm := List.mem_of_getElem? hc
  have hstorage : Extends s.storage (s.storage.insert ref data) :=
    Listing.lookup_insert_of_notMem data (hi.storage.waiting c hcm _ _ _ h)
  have himage := hk.pictured c hcm
  unfold Pictured at himage
  generalize c.stage = st at h himage
  cases h with
  | warranty => exact kept_moved hk hc rfl hstorage rfl (fun id hid => by cases hid) trivial
  | product =>
    refine kept_moved hk hc rfl hstorage rfl (fun id hid => by cases hid) ?_
    exact imageFound_frame (extends_refl _) himage e

theorem kept_wrote {vc : OptionalDataVC Image} {warrantyUrl productUrl id uuid : String} (hi : Inv s₀.produts s)
    (hes : Runs.run (Uploads.step p) s₀ es = some s) (hk : Kept p s₀ es s)
    (hstep : s.step p (.success k uuid) = some (s.uploadProduct k c vc warrantyUrl productUrl id))
    (hc : s.chains[k]? = some c) (hvc : s.controllers[c.vc]? = some vc)
    (h : c.stage.Calls p vc warrantyUrl productUrl) (hnew : id ∉ s.issued) :
    Kept p s₀ (es ++ [.success k uuid]) (s.uploadProduct k c vc warrantyUrl productUrl id) := by
  have hother : ∀ id', id' ∈ s.issued →
      (s.uploadProduct k c vc warrantyUrl productUrl id).produts.lookup id' = s.produts.lookup id' := by
    intro id' hid
    apply AList.lookup_insert_ne
    rintro rfl
    exact hnew hid
  have himage : ImageFound p s₀ (es ++ [.success k uuid]) s.storage warrantyUrl productUrl := by
    have hpictured := hk.pictured c (List.mem_of_getElem? hc)
    unfold Pictured at hpictured
    generalize hst : c.stage = st at h hpictured
    cases h with
    | without ref hnone =>
      exact ⟨ref, none, rfl, rfl, (Runs.meets_snoc _ hes _).mpr (.inr ⟨k, uuid, c, vc, rfl, hc, hst, hvc, hnone⟩)⟩
    | having => exact imageFound_frame (extends_refl _) hpictured _
  refine ⟨fun id' hid => ?_, (Listing.forall_mem_set_iff hc _).mpr ⟨fun id' hid => ?_, fun d hd => ?_⟩,
    pictured_moved hk hc rfl (extends_refl _) trivial⟩
  · rw [hother id' (hi.names.launched id' hid), hk.launched id' hid]
  · obtain rfl := Option.some.inj hid
    refine ⟨_, _, _, _, AList.lookup_insert _, himage, (Runs.meets_snoc _ hes _).mpr (.inr ?_)⟩
    have hold : id ∉ s.produts := fun hmem => hnew (hi.collection.issued id hmem)
    exact ⟨k, uuid, c, vc, _, rfl, hc, rfl, hvc, rfl, rfl, hold, hstep, (AList.mem_insert _).mpr (.inl rfl)⟩
  · have hd := List.mem_of_mem_eraseIdx hd
    exact records_frame (extends_refl _) (fun id' hid => hother id' (document_issued hi hd hid))
      (hk.recorded d hd) _

theorem kept_hop {uuid : String} (hi : Inv s₀.produts s) (hes : Runs.run (Uploads.step p) s₀ es = some s)
    (hk : Kept p s₀ es s) (hstep : s.step p (.success k uuid) = some s') (hc : s.chains[k]? = some c)
    (h : Hop p s k c s') :
    Kept p s₀ (es ++ [.success k uuid]) s' := by
  cases h with
  | stored h => exact kept_stored hi hk hc h _
  | @named vc ref image data uuid' h hvc himage hdata =>
    refine kept_moved hk hc rfl (extends_refl _) rfl (fun id hid => by cases hid) ?_
    refine ⟨ref, some image, rfl, ⟨_, data, hdata, AList.lookup_insert _, rfl⟩, ?_⟩
    exact (Runs.meets_snoc _ hes _).mpr (.inr ⟨k, uuid, c, vc, rfl, hc, h, hvc, himage⟩)
  | unencodable => exact kept_moved hk hc rfl (extends_refl _) rfl (fun id hid => by cases hid) trivial
  | acknowledged h =>
    exact kept_moved hk hc rfl (extends_refl _) rfl (fun id hid => by rw [Chain.document, h]; exact hid) trivial
  | performed h =>
    exact kept_moved hk hc rfl (extends_refl _) rfl (fun id hid => by rw [Chain.document, h]; exact hid) trivial
  | wrote hvc h hnew => exact kept_wrote hi hes hk hstep hc hvc h hnew

theorem kept_stop {e : UploadEvent Image} (hi : Inv s₀.produts s) (hk : Kept p s₀ es s)
    (hc : s.chains[k]? = some c) (h : Stop s k c s') : Kept p s₀ (es ++ [e]) s' := by
  cases h with
  | stopped => exact kept_moved hk hc rfl (extends_refl _) rfl (fun id hid => by cases hid) trivial
  | @rolledBack id h =>
    have hid : c.document = some id := by rw [Chain.document, h]; rfl
    have hnew := (hi.names.issued id (List.mem_filterMap.mpr ⟨c, List.mem_of_getElem? hc, document_name hid⟩)).2
    refine ⟨fun id' hid' => ?_, (Listing.forall_mem_set_iff hc _).mpr ⟨records_none rfl, fun d hd => ?_⟩,
      pictured_moved hk hc rfl (extends_refl _) trivial⟩
    · rw [← hk.launched id' hid']
      apply AList.lookup_erase_ne
      rintro rfl
      exact hnew hid'
    · refine records_frame (extends_refl _) (fun id' hid' => AList.lookup_erase_ne ?_)
        (hk.recorded d (List.mem_of_mem_eraseIdx hd)) e
      rintro rfl
      exact name_ne hi.names hc hd (document_name hid) (document_name hid')

theorem kept_step {e : UploadEvent Image} (hi : Inv s₀.produts s) (hes : Runs.run (Uploads.step p) s₀ es = some s)
    (hk : Kept p s₀ es s) (h : s.step p e = some s') : Kept p s₀ (es ++ [e]) s' := by
  have hold : ∀ c ∈ s.chains, Records p s₀ (es ++ [e]) s.storage s.produts c :=
    fun c hc => records_frame (extends_refl _) (fun _ _ => rfl) (hk.recorded c hc) e
  have himages : ∀ c ∈ s.chains, Pictured p s₀ (es ++ [e]) s.storage c :=
    fun c hc => pictured_frame (extends_refl _) (hk.pictured c hc) e
  cases step_act h with
  | screen => exact ⟨hk.launched, hold, himages⟩
  | started =>
    exact ⟨hk.launched, Listing.forall_mem_snoc.mpr ⟨hold, records_none rfl⟩,
      Listing.forall_mem_snoc.mpr ⟨himages, trivial⟩⟩
  | hop hc _ hhop => exact kept_hop hi hes hk h hc hhop
  | stop hc hstop => exact kept_stop hi hk hc hstop

end

theorem kept_run (hrun : Runs.run (Uploads.step p) (launch storage produts currentUser) es = some s) :
    Kept p (launch storage produts currentUser) es s := by
  refine (Runs.run_history (I := fun s es => Inv produts s ∧ Kept p (launch storage produts currentUser) es s)
    ⟨inv_launch storage produts currentUser, fun _ _ => rfl, fun _ hc => (List.not_mem_nil hc).elim,
      fun _ hc => (List.not_mem_nil hc).elim⟩ ?_ hrun).2
  intro t es e t' hes hs ht
  exact ⟨inv_step hs.1 ht, kept_step hs.1 hes hs.2 ht⟩

/-- A document that was not there at the launch is a chain's record, with the URL of the chain's warranty
image and that of the product image then shown. -/
theorem added_recorded (hrun : Runs.run (Uploads.step p) (launch storage produts currentUser) es = some s)
    {id : String} {data : Data} (hd : s.produts.lookup id = some data) (hnew : id ∉ produts) :
    ∃ c ∈ s.chains, c.document = some id ∧ ∃ notes ref shown productUrl uid,
      data = productData c.finalProduct notes (p.absoluteString ref) productUrl uid ∧
      s.storage.lookup ref = c.finalProduct.warrantyImage.bind p.jpegData ∧
      ShowsImage p s.storage shown productUrl ∧
      Runs.Meets (Uploads.step p) (FindsImage ref shown) (launch storage produts currentUser) es ∧
      Runs.Meets (Uploads.step p) (PutsRecord p c.finalProduct notes uid id)
        (launch storage produts currentUser) es := by
  obtain ⟨hi, hl⟩ := linked_run hrun
  have hmem : id ∈ s.produts := AList.lookup_isSome.mp (by rw [hd]; rfl)
  obtain ⟨c, hc, hid⟩ := ((hi.collection.documents id).mp hmem).resolve_left hnew
  obtain ⟨k, hk⟩ := List.mem_iff_getElem?.mp hc
  obtain ⟨notes, warrantyUrl, productUrl, uid, hrecord, ⟨ref, shown, rfl, hshown, hfound⟩, hwrites⟩ :=
    (kept_run hrun).recorded c hc id hid
  obtain ⟨data', hdata', ⟨ref', bytes, hwarranty, -, hstored, hbytes⟩, -⟩ := trail_links hl hk hid
  cases hd.symm.trans hdata'
  cases hd.symm.trans hrecord
  rw [productData_warrantyImage] at hwarranty
  obtain rfl := p.absoluteString_injective (Option.some.inj hwarranty)
  exact ⟨c, hc, hid, notes, ref, shown, productUrl, uid, rfl, hstored.trans hbytes.symm, hshown, hfound, hwrites⟩

end

end WarrantyGuard

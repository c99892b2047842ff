import WarrantyGuard.UploadSound

/-!
# The taps and their documents

A document carries what its tap saw when the chain reads it so: the notes and
the user are read as the document is written, the image when the warranty's URL
arrives. Every tap has a chain and a document of its own.
-/

namespace WarrantyGuard

open Uploads

section
variable {Image Bytes : Type} {p : Platform Image Bytes}

/-- A URL of the image then shown, or the empty string if none was. -/
def ShowsImage (p : Platform Image Bytes) (storage : Storage Bytes) : Option Image → String → Prop
  | none, url => url = ""
  | some image, url => ∃ ref data, p.jpegData image = some data ∧ storage.lookup ref = some data ∧
    url = p.absoluteString ref

def CarriesTap (p : Platform Image Bytes) (storage : Storage Bytes) (tap : Tap Image) (data : Data) : Prop :=
  data.string "warrantyNots" = some tap.notes ∧
    (∃ url, data.string "productImage" = some url ∧ ShowsImage p storage tap.productImage url) ∧
    ∃ uid, tap.uid = some uid ∧ data.string "userID" = some uid

def Carries (p : Platform Image Bytes) (s : Uploads Image Bytes) (c : Chain Image Bytes) : Prop :=
  ∀ id, c.document = some id → ∃ data, s.produts.lookup id = some data ∧ CarriesTap p s.storage c.tap data

def CarriesTaps (p : Platform Image Bytes) (s : Uploads Image Bytes) : Prop := ∀ c ∈ s.chains, Carries p s c

/-! ## What a completion must read -/

def FormOfTap (s : Uploads Image Bytes) (vc : OptionalDataVC Image) (tap : Tap Image) : Prop :=
  vc.notesTV = tap.notes ∧ s.currentUser = tap.uid ∧ tap.uid ≠ none

/-- Where the completion writes the document, it finds the form and the session
of the tap, no image shown if none was, the tap's image in the stored object. -/
def ReadsForm (p : Platform Image Bytes) (s : Uploads Image Bytes) (c : Chain Image Bytes)
    (vc : OptionalDataVC Image) :
    Prop :=
  match c.stage with
  | .warrantyURL _ => vc.productImageView = none → c.tap.productImage = none ∧ FormOfTap s vc c.tap
  | .productURL _ ref =>
    (∃ image, c.tap.productImage = some image ∧ p.jpegData image = s.storage.lookup ref) ∧ FormOfTap s vc c.tap
  | _ => True

def ReadsTap (p : Platform Image Bytes) (s : Uploads Image Bytes) : UploadEvent Image → Prop
  | .success k _ => ∀ c vc, s.chains[k]? = some c → s.controllers[c.vc]? = some vc → ReadsForm p s c vc
  | _ => True

theorem showsImage_empty (storage : Storage Bytes) (o : Option Image) : ShowsImage p storage o "" ↔ o = none := by
  cases o with
  | none => exact ⟨fun _ => rfl, fun _ => rfl⟩
  | some image =>
    refine ⟨?_, fun h => by cases h⟩
    intro h
    obtain ⟨ref, -, -, -, hurl⟩ := h
    exact absurd hurl.symm (p.absoluteString_ne_empty ref)

theorem showsImage_url {storage : Storage Bytes} {ref : Ref} (href : ref ∈ storage) (o : Option Image) :
    ShowsImage p storage o (p.absoluteString ref) ↔ ∃ image, o = some image ∧
    p.jpegData image = storage.lookup ref := by
  cases o with
  | none =>
    refine ⟨fun h => absurd h (p.absoluteString_ne_empty ref), ?_⟩
    intro h
    obtain ⟨image, himage, -⟩ := h
    cases himage
  | some image =>
    constructor
    · intro h
      obtain ⟨ref', data, himage, hdata, hurl⟩ := h
      obtain rfl := p.absoluteString_injective hurl
      exact ⟨image, rfl, himage.trans hdata.symm⟩
    · intro h
      obtain ⟨image', heq, himage⟩ := h
      obtain rfl := Option.some.inj heq
      obtain ⟨data, hdata⟩ := Option.isSome_iff_exists.mp (AList.lookup_isSome.mpr href)
      exact ⟨ref, data, himage.trans hdata, hdata, rfl⟩

theorem carriesTap_productData (storage : Storage Bytes) (tap : Tap Image)
    (uploadedProduct : ProductComponents Image) (notes warrantyUrl productUrl : String)
    (uid : Option String) :
    CarriesTap p storage tap (productData uploadedProduct notes warrantyUrl productUrl uid) ↔
      notes = tap.notes ∧ ShowsImage p storage tap.productImage productUrl ∧ uid = tap.uid ∧ tap.uid ≠ none := by
  unfold CarriesTap
  rw [productData_warrantyNots, productData_productImage, productData_userID, Option.some_inj]
  refine and_congr_right fun _ => and_congr (by simp) ?_
  constructor
  · intro h
    obtain ⟨u, hu, huid⟩ := h
    exact ⟨huid.trans hu.symm, by rw [hu]; exact Option.some_ne_none u⟩
  · intro h
    obtain ⟨rfl, hu⟩ := h
    obtain ⟨u, hu⟩ := Option.ne_none_iff_exists'.mp hu
    exact ⟨u, hu, hu⟩

variable {s s' : Uploads Image Bytes} {k : Nat} {c : Chain Image Bytes} {produts : Collection}

/-- The second storage has all that the first has. -/
def Extends (storage storage' : Storage Bytes) : Prop :=
  ∀ ref data, storage.lookup ref = some data → storage'.lookup ref = some data

theorem extends_refl (storage : Storage Bytes) : Extends storage storage := fun _ _ h => h

theorem showsImage_mono {storage storage' : Storage Bytes} (h : Extends storage storage') {o : Option Image}
    {url : String} (hs : ShowsImage p storage o url) : ShowsImage p storage' o url := by
  cases o with
  | none => exact hs
  | some image =>
    obtain ⟨ref, bytes, hdata, hlookup, hurl⟩ := hs
    exact ⟨ref, bytes, hdata, h ref bytes hlookup, hurl⟩

theorem carriesTap_mono {storage storage' : Storage Bytes} (h : Extends storage storage') {tap : Tap Image}
    {data : Data} (hc : CarriesTap p storage tap data) : CarriesTap p storage' tap data := by
  obtain ⟨hnotes, ⟨url, hurl, himage⟩, huid⟩ := hc
  exact ⟨hnotes, ⟨url, hurl, showsImage_mono h himage⟩, huid⟩

theorem carries_frame {d : Chain Image Bytes} (hstorage : Extends s.storage s'.storage)
    (hproduts : ∀ id, d.document = some id → s'.produts.lookup id = s.produts.lookup id) (h : Carries p s d) :
    Carries p s' d := by
  intro id hid
  obtain ⟨data, hdata, hc⟩ := h id hid
  exact ⟨data, by rw [hproduts id hid, hdata], carriesTap_mono hstorage hc⟩

theorem carries_of_none {d : Chain Image Bytes} (h : d.document = none) : Carries p s d := by
  intro id hid; rw [h] at hid; cases hid

theorem carriesTaps_moved (hP : CarriesTaps p s) (hc : s.chains[k]? = some c) {stage : Stage Bytes}
    (hchains : s'.chains = s.chains.set k { c with stage := stage }) (hstorage : Extends s.storage s'.storage)
    (hproduts : s'.produts = s.produts) (h : stage.document = none ∨ stage.document = c.document) :
    CarriesTaps p s' := by
  unfold CarriesTaps
  rw [hchains, Listing.forall_mem_set_iff hc]
  obtain ⟨hold, hrest⟩ := (Listing.forall_mem_iff hc).mp hP
  refine ⟨?_, fun d hd => carries_frame hstorage (fun _ _ => by rw [hproduts]) (hrest d hd)⟩
  rcases h with h | h
  · exact carries_of_none h
  · refine carries_frame (s := s) hstorage (fun _ _ => by rw [hproduts]) fun id hid => hold id ?_
    rw [← h]; exact hid

theorem document_issued (hi : Inv produts s) {d : Chain Image Bytes} (hd : d ∈ s.chains) {id : String}
    (h : d.document = some id) : id ∈ s.issued :=
  (hi.names.issued id (List.mem_filterMap.mpr ⟨d, hd, document_name h⟩)).1

theorem carriesTaps_wrote (hi : Inv produts s) (hP : CarriesTaps p s) (hc : s.chains[k]? = some c)
    {vc : OptionalDataVC Image} {warrantyUrl productUrl uuid : String} (huuid : uuid ∉ s.issued) :
    CarriesTaps p (s.uploadProduct k c vc warrantyUrl productUrl uuid) ↔
      vc.notesTV = c.tap.notes ∧ ShowsImage p s.storage c.tap.productImage productUrl ∧
        s.currentUser = c.tap.uid ∧ c.tap.uid ≠ none := by
  have hlookup : (s.uploadProduct k c vc warrantyUrl productUrl uuid).produts.lookup uuid =
      some (productData c.finalProduct vc.notesTV warrantyUrl productUrl s.currentUser) := AList.lookup_insert _
  rw [← carriesTap_productData (p := p) s.storage c.tap c.finalProduct vc.notesTV warrantyUrl productUrl
    s.currentUser]
  refine (Listing.forall_mem_set_iff hc _).trans ⟨fun h => ?_, fun h => ⟨fun id hid => ?_, fun d hd => ?_⟩⟩
  · obtain ⟨data, hdata, hcarries⟩ := h.1 uuid rfl
    cases hlookup.symm.trans hdata
    exact hcarries
  · obtain rfl : uuid = id := Option.some.inj hid
    exact ⟨_, hlookup, h⟩
  · refine carries_frame (s := s) (extends_refl _) (fun id hid => AList.lookup_insert_ne ?_)
      (((Listing.forall_mem_iff hc).mp hP).2 d hd)
    rintro rfl
    exact huuid (document_issued hi (List.mem_of_mem_eraseIdx hd) hid)

theorem carriesTaps_hop (hi : Inv produts s) (hP : CarriesTaps p s) (hc : s.chains[k]? = some c)
    {vc : OptionalDataVC Image} (hvc : s.controllers[c.vc]? = some vc) (h : Hop p s k c s') :
    CarriesTaps p s' ↔ ReadsForm p s c vc := by
  have hcm := List.mem_of_getElem? hc
  unfold ReadsForm
  cases h with
  | @stored ref data stage h =>
    have hmono := Listing.lookup_insert_of_notMem data (hi.storage.waiting c hcm _ _ _ h)
    generalize hst : c.stage = st at h
    cases h with
    | warranty => exact iff_of_true (carriesTaps_moved hP hc rfl hmono rfl (.inl rfl)) trivial
    | product => exact iff_of_true (carriesTaps_moved hP hc rfl hmono rfl (.inl rfl)) trivial
  | named h hvc' himage =>
    cases hvc.symm.trans hvc'
    simp only [h, himage, reduceCtorEq, false_imp_iff, iff_true]
    exact carriesTaps_moved hP hc rfl (extends_refl _) rfl (.inl rfl)
  | wrote hvc' h huuid =>
    cases hvc.symm.trans hvc'
    rw [carriesTaps_wrote hi hP hc huuid]
    unfold FormOfTap
    generalize hst : c.stage = st at h
    cases h with
    | without ref hnone =>
      simp only [hnone, true_imp_iff, showsImage_empty]
      exact and_left_comm
    | having w ref =>
      simp only [showsImage_url (hi.storage.found c hcm _ _ hst)]
      exact and_left_comm
  | acknowledged h =>
    simp only [h, iff_true]
    exact carriesTaps_moved hP hc rfl (extends_refl _) rfl (.inr (by simp [Chain.document, Stage.document, h]))
  | performed h =>
    simp only [h, iff_true]
    exact carriesTaps_moved hP hc rfl (extends_refl _) rfl (.inr (by simp [Chain.document, Stage.document, h]))
  | unencodable h hvc' himage =>
    cases hvc.symm.trans hvc'
    simp only [h, himage, reduceCtorEq, false_imp_iff, iff_true]
    exact carriesTaps_moved hP hc rfl (extends_refl _) rfl (.inl rfl)

theorem carriesTaps_stop (hi : Inv produts s) (hP : CarriesTaps p s) (hc : s.chains[k]? = some c)
    (h : Stop s k c s') : CarriesTaps p s' := by
  cases h with
  | stopped => exact carriesTaps_moved hP hc rfl (extends_refl _) rfl (.inl rfl)
  | @rolledBack id h =>
    have hid : c.document = some id := by simp [Chain.document, Stage.document, h]
    refine (Listing.forall_mem_set_iff hc _).mpr ⟨carries_of_none rfl, fun d hd => ?_⟩
    refine carries_frame (s := s) (extends_refl _) (fun id' hid' => AList.lookup_erase_ne ?_)
      (((Listing.forall_mem_iff hc).mp hP).2 d hd)
    rintro rfl
    exact name_ne hi.names hc hd (document_name hid) (document_name hid')

theorem readsTap_of_ne {e : UploadEvent Image} (he : ∀ k uuid, e ≠ .success k uuid) : ReadsTap p s e := by
  cases e with
  | success k uuid => exact absurd rfl (he k uuid)
  | _ => trivial

theorem carriesTaps_step {e : UploadEvent Image} (hi : Inv produts s) (hP : CarriesTaps p s)
    (h : s.step p e = some s') :
    CarriesTaps p s' ↔ ReadsTap p s e := by
  cases step_act h with
  | screen he => exact iff_of_true hP (readsTap_of_ne he)
  | started =>
    refine iff_of_true ?_ trivial
    exact Listing.forall_mem_snoc.mpr ⟨hP, carries_of_none rfl⟩
  | @hop k c vc uuid _ hc hvc h =>
    rw [carriesTaps_hop hi hP hc hvc h]
    constructor
    · intro hr c' vc' hc' hvc'
      cases hc.symm.trans hc'
      cases hvc.symm.trans hvc'
      exact hr
    · intro hr
      exact hr c vc hc hvc
  | stop hc h => exact iff_of_true (carriesTaps_stop hi hP hc h) trivial

theorem documents_carry_taps_iff (p : Platform Image Bytes) (storage : Storage Bytes) (produts : Collection)
    (currentUser : Option String) (es : List (UploadEvent Image)) :
    Runs.Always (Uploads.step p) (CarriesTaps p) (launch storage produts currentUser) es ↔
      Runs.Along (Uploads.step p) (ReadsTap p) (launch storage produts currentUser) es :=
  Runs.always_iff_along (I := Inv produts) (fun _ _ _ hi h => inv_step hi h)
    (fun _ _ _ hi hP h => carriesTaps_step hi hP h) (inv_launch storage produts currentUser)
    (fun _ hc => by cases hc)

end

/-- Images that are their own encoding, for the fixed inputs below. -/
def textImages : Platform String String where
  jpegData := some
  absoluteString := fun ref =>
    match ref.folder with
    | .warranty => "https://storage/Warranty%2F" ++ ref.name
    | .product => "https://storage/Product%2F" ++ ref.name
  absoluteString_injective := by
    rintro ⟨folder, name⟩ ⟨folder', name'⟩ h
    have h := congrArg String.toList h
    cases folder <;> cases folder' <;> simp [String.toList_append] at h <;> simp_all
  absoluteString_ne_empty := by
    rintro ⟨folder, name⟩ h
    have h := congrArg String.toList h
    cases folder <;> simp at h

def phone : ProductComponents String :=
  ⟨some "Phone", some "Dec 21, 2021", some "Dec 21, 2022", some "Phones", some "receipt", none, none⟩

theorem documents_carry_taps_fails :
    ¬ ∀ (Image Bytes : Type) (p : Platform Image Bytes) (storage : Storage Bytes) (produts : Collection)
      (currentUser : Option String) (es : List (UploadEvent Image)),
      Runs.Always (Uploads.step p) (CarriesTaps p) (launch storage produts currentUser) es := by
  intro h
  -- the notes are edited while the warranty image is uploaded
  have hc : CarriesTaps _ _ := Runs.always_last (h String String textImages ∅ ∅ (some "u")
    [.viewDidLoad (some phone), .nextButtonPressed 0 "A", .success 0 "B", .notesChanged 0 "later",
    .success 0 "C"]) rfl
  obtain ⟨data, hdata, hnotes, -⟩ := hc _ List.mem_cons_self "C" rfl
  cases hdata
  exact absurd hnotes (by decide)

/-! ## One document and one transition for a tap -/

section
variable {Image Bytes : Type} {p : Platform Image Bytes} {s s' : Uploads Image Bytes} {k : Nat}
  {c : Chain Image Bytes} {produts : Collection} (i : Nat)

/-- The chains of one controller that meet `q`. -/
def Uploads.count (s : Uploads Image Bytes) (i : Nat) (q : Chain Image Bytes → Bool) : Nat :=
  s.chains.countP fun c => decide (c.vc = i) && q c

theorem count_set (q : Chain Image Bytes → Bool) (hc : s.chains[k]? = some c) {c' : Chain Image Bytes}
    (hchains : s'.chains = s.chains.set k c') (hvc : c'.vc = c.vc) :
    s'.count i q + (if c.vc = i ∧ q c then 1 else 0) = s.count i q + (if c.vc = i ∧ q c' then 1 else 0) := by
  unfold Uploads.count
  rw [hchains, (Listing.set_perm hc c').countP_eq, (Listing.perm_cons_eraseIdx hc).countP_eq,
    List.countP_cons, List.countP_cons, hvc]
  simp only [Bool.and_eq_true, decide_eq_true_eq]
  omega

/-- Chain `k` has not performed its transition, and logs it when it does. -/
def Performs (s s' : Uploads Image Bytes) (k : Nat) (c : Chain Image Bytes) : Prop :=
  c.stage.isPerformed = false ∧ ∃ stage, s'.chains = s.chains.set k { c with stage := stage } ∧
    (stage.isPerformed = false ∧ s'.segues = s.segues ∨ stage.isPerformed = true ∧ s'.segues = c.vc :: s.segues)

theorem isPerformed_of_document (h : c.document = none) : c.stage.isPerformed = false := by
  unfold Chain.document at h
  cases hst : c.stage with
  | performed id => rw [hst] at h; cases h
  | _ => rfl

theorem hop_performs (h : Hop p s k c s') : Performs s s' k c := by
  cases h with
  | @stored ref data stage h =>
    unfold Performs
    generalize c.stage = st at h
    cases h with
    | warranty => exact ⟨rfl, _, rfl, .inl ⟨rfl, rfl⟩⟩
    | product => exact ⟨rfl, _, rfl, .inl ⟨rfl, rfl⟩⟩
  | named h => exact ⟨by rw [h]; rfl, _, rfl, .inl ⟨rfl, rfl⟩⟩
  | wrote _ h => exact ⟨isPerformed_of_document (document_of_calls h), _, rfl, .inl ⟨rfl, rfl⟩⟩
  | acknowledged h => exact ⟨by rw [h]; rfl, _, rfl, .inl ⟨rfl, rfl⟩⟩
  | performed h => exact ⟨by rw [h]; rfl, _, rfl, .inr ⟨rfl, rfl⟩⟩
  | unencodable h => exact ⟨by rw [h]; rfl, _, rfl, .inl ⟨rfl, rfl⟩⟩

theorem stop_performs (h : Stop s k c s') : Performs s s' k c := by
  cases h with
  | stopped h => exact ⟨isPerformed_of_document h, _, rfl, .inl ⟨rfl, rfl⟩⟩
  | rolledBack h => exact ⟨by rw [h]; rfl, _, rfl, .inl ⟨rfl, rfl⟩⟩

/-- The transitions of a controller are those its chains have performed. -/
def SeguesOf (i : Nat) (s : Uploads Image Bytes) : Prop := s.segues.count i = s.count i (·.stage.isPerformed)

theorem seguesOf_performs (hs : SeguesOf i s) (hc : s.chains[k]? = some c) (h : Performs s s' k c) :
    SeguesOf i s' := by
  obtain ⟨hold, stage, hchains, hstage⟩ := h
  have hcount := count_set i (·.stage.isPerformed) hc hchains rfl
  unfold SeguesOf at hs ⊢
  rcases hstage with ⟨hnew, hsegues⟩ | ⟨hnew, hsegues⟩
  · simp only [hold, hnew, Bool.false_eq_true, and_false, if_false, Nat.add_zero] at hcount
    rw [hsegues, hs, hcount]
  · simp only [hold, hnew, Bool.false_eq_true, and_false, and_true, if_false, Nat.add_zero] at hcount
    rw [hsegues, List.count_cons, hs, hcount]
    simp only [beq_iff_eq]

theorem seguesOf_change (hs : SeguesOf i s) (h : Change p s s') : SeguesOf i s' := by
  cases h with
  | screen => exact hs
  | started =>
    show _ = List.countP _ (_ ++ [_])
    rw [List.countP_append, List.countP_singleton]
    simp only [Stage.isPerformed, Bool.and_false, Bool.false_eq_true, if_false, Nat.add_zero]
    exact hs
  | hop hc h => exact seguesOf_performs i hs hc (hop_performs h)
  | stop hc h => exact seguesOf_performs i hs hc (stop_performs h)

end

end WarrantyGuard

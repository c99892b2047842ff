import WarrantyGuard.Upload

/-!
# What the chains write

A chain's completion makes one hop: an object is stored, a name is made for the
next object, the document is written, the write is acknowledged, the transition
is performed, or the chain ends. Every name is a fresh UUID, so a hop changes
nothing that another chain has made.
-/

namespace WarrantyGuard

open Uploads

/-! ## The hops -/

inductive Stage.Stores {Bytes : Type} : Stage Bytes → Ref → Bytes → Stage Bytes → Prop
  | warranty (ref : Ref) (data : Bytes) : Stores (.putWarranty ref data) ref data (.warrantyURL ref)
  | product (warantyUrl : String) (ref : Ref) (data : Bytes) :
      Stores (.putProduct warantyUrl ref data) ref data (.productURL warantyUrl ref)

inductive Stage.Calls {Image Bytes : Type} (p : Platform Image Bytes) (vc : OptionalDataVC Image) :
    Stage Bytes → String → String → Prop
  | without (ref : Ref) (h : vc.productImageView = none) : Stage.Calls p vc (.warrantyURL ref)
      (p.absoluteString ref) ""
  | having (warantyUrl : String) (ref : Ref) :
      Stage.Calls p vc (.productURL warantyUrl ref) warantyUrl (p.absoluteString ref)

section
variable {Image Bytes : Type} {p : Platform Image Bytes}

inductive Hop (p : Platform Image Bytes) (s : Uploads Image Bytes) (k : Nat) (c : Chain Image Bytes) :
    Uploads Image Bytes → Prop
  | stored {ref : Ref} {data : Bytes} {stage : Stage Bytes} (h : c.stage.Stores ref data stage) :
      Hop p s k c ({ s with storage := s.storage.insert ref data }.setStage k c stage)
  | named {vc : OptionalDataVC Image} {ref : Ref} {image : Image} {data : Bytes} {uuid : String}
      (h : c.stage = .warrantyURL ref) (hvc : s.controllers[c.vc]? = some vc)
      (himage : vc.productImageView = some image) (hdata : p.jpegData image = some data)
      (huuid : uuid ∉ s.issued) :
      Hop p s k c ({ s with issued := uuid :: s.issued }.setStage k c
        (.putProduct (p.absoluteString ref) ⟨.product, uuid⟩ data))
  | wrote {vc : OptionalDataVC Image} {warrantyUrl productUrl uuid : String}
      (hvc : s.controllers[c.vc]? = some vc) (h : c.stage.Calls p vc warrantyUrl productUrl)
      (huuid : uuid ∉ s.issued) :
      Hop p s k c (s.uploadProduct k c vc warrantyUrl productUrl uuid)
  | acknowledged {id : String} (h : c.stage = .setData id) : Hop p s k c (s.setStage k c (.productAdded id))
  | performed {id : String} (h : c.stage = .productAdded id) :
      Hop p s k c ({ s with segues := c.vc :: s.segues }.setStage k c (.performed id))
  | unencodable {vc : OptionalDataVC Image} {ref : Ref} {image : Image}
      (h : c.stage = .warrantyURL ref) (hvc : s.controllers[c.vc]? = some vc)
      (himage : vc.productImageView = some image) (hdata : p.jpegData image = none) :
      Hop p s k c (s.setStage k c .ended)

inductive Stop (s : Uploads Image Bytes) (k : Nat) (c : Chain Image Bytes) : Uploads Image Bytes → Prop
  | stopped (h : c.document = none) : Stop s k c (s.setStage k c .ended)
  | rolledBack {id : String} (h : c.stage = .setData id) :
      Stop s k c ({ s with produts := s.produts.delete id }.setStage k c .ended)

variable {s s' : Uploads Image Bytes} {k : Nat} {c : Chain Image Bytes}

theorem succeed_hop {vc : OptionalDataVC Image} {uuid : String} (huuid : uuid ∉ s.issued)
    (hvc : s.controllers[c.vc]? = some vc) (h : s.succeed p k c vc uuid = some s') : Hop p s k c s' := by
  unfold Uploads.succeed at h
  cases hc : c.stage with
  | putWarranty ref data =>
    rw [hc] at h; cases h
    exact .stored (hc ▸ .warranty ref data)
  | warrantyURL ref =>
    simp only [hc] at h
    cases himage : vc.productImageView with
    | none =>
      simp only [himage] at h; cases h
      exact .wrote hvc (hc ▸ .without ref himage) huuid
    | some image =>
      simp only [himage] at h
      cases hdata : p.jpegData image with
      | none =>
        simp only [hdata] at h; cases h
        exact .unencodable hc hvc himage hdata
      | some data =>
        simp only [hdata] at h; cases h
        exact .named hc hvc himage hdata huuid
  | putProduct warantyUrl ref data =>
    rw [hc] at h; cases h
    exact .stored (hc ▸ .product warantyUrl ref data)
  | productURL warantyUrl ref =>
    rw [hc] at h; cases h
    exact .wrote hvc (hc ▸ .having warantyUrl ref) huuid
  | setData id => rw [hc] at h; cases h; exact .acknowledged hc
  | productAdded id => rw [hc] at h; cases h; exact .performed hc
  | performed id => rw [hc] at h; cases h
  | ended => rw [hc] at h; cases h

theorem fail_stop (h : s.fail k c = some s') : Stop s k c s' := by
  unfold Uploads.fail at h
  cases hc : c.stage with
  | setData id => rw [hc] at h; cases h; exact .rolledBack hc
  | putWarranty | warrantyURL | putProduct | productURL =>
    rw [hc] at h; cases h
    exact .stopped (by rw [Chain.document, hc]; rfl)
  | productAdded | performed | ended => rw [hc] at h; cases h

/-- What an event changes: what the screens and the session show, the chains by
a new one, or one chain by a hop or its end. -/
inductive Change (p : Platform Image Bytes) (s : Uploads Image Bytes) : Uploads Image Bytes → Prop
  | screen (controllers : List (OptionalDataVC Image)) (uid : Option String) :
      Change p s { s with controllers := controllers, currentUser := uid }
  | started {vc : OptionalDataVC Image} {i : Nat} {finalProduct : ProductComponents Image} {data : Bytes}
      {uuid : String} (hvc : s.controllers[i]? = some vc) (hp : vc.product = some finalProduct)
      (hdata : finalProduct.warrantyImage.bind p.jpegData = some data) (huuid : uuid ∉ s.issued) :
      Change p s { s with issued := uuid :: s.issued,
                          chains := s.chains ++
                            [⟨i, finalProduct, ⟨vc.notesTV, vc.productImageView, s.currentUser⟩,
                            .putWarranty ⟨.warranty, uuid⟩ data⟩] }
  | hop {k : Nat} {c : Chain Image Bytes} {s' : Uploads Image Bytes} (hc : s.chains[k]? = some c)
      (h : Hop p s k c s') : Change p s s'
  | stop {k : Nat} {c : Chain Image Bytes} {s' : Uploads Image Bytes} (hc : s.chains[k]? = some c)
      (h : Stop s k c s') : Change p s s'

theorem step_success {k : Nat} {uuid : String} (h : s.step p (.success k uuid) = some s') :
    ∃ c vc, s.chains[k]? = some c ∧ s.controllers[c.vc]? = some vc ∧ uuid ∉ s.issued ∧
      s.succeed p k c vc uuid = some s' := by
  simp only [Uploads.step] at h
  split at h
  · cases h
  · rename_i huuid
    obtain ⟨c, hc, h⟩ := Option.bind_eq_some_iff.mp h
    obtain ⟨vc, hvc, h⟩ := Option.bind_eq_some_iff.mp h
    exact ⟨c, vc, hc, hvc, huuid, h⟩

/-- The same with the event: only a completion makes a hop. -/
inductive Act (p : Platform Image Bytes) (s : Uploads Image Bytes) : UploadEvent Image → Uploads Image Bytes → Prop
  | screen {e : UploadEvent Image} (he : ∀ k uuid, e ≠ .success k uuid) (controllers : List (OptionalDataVC Image))
      (uid : Option String) : Act p s e { s with controllers := controllers, currentUser := uid }
  | started {vc : OptionalDataVC Image} {i : Nat} {finalProduct : ProductComponents Image} {data : Bytes}
      {uuid : String} (hvc : s.controllers[i]? = some vc) (hp : vc.product = some finalProduct)
      (hdata : finalProduct.warrantyImage.bind p.jpegData = some data) (huuid : uuid ∉ s.issued) :
      Act p s (.nextButtonPressed i uuid)
        { s with issued := uuid :: s.issued,
                 chains := s.chains ++ [⟨i, finalProduct, ⟨vc.notesTV, vc.productImageView, s.currentUser⟩,
                   .putWarranty ⟨.warranty, uuid⟩ data⟩] }
  | hop {k : Nat} {c : Chain Image Bytes} {vc : OptionalDataVC Image} {uuid : String} {s' : Uploads Image Bytes}
      (hc : s.chains[k]? = some c) (hvc : s.controllers[c.vc]? = some vc) (h : Hop p s k c s') :
      Act p s (.success k uuid) s'
  | stop {k : Nat} {c : Chain Image Bytes} {s' : Uploads Image Bytes} (hc : s.chains[k]? = some c)
      (h : Stop s k c s') : Act p s (.failure k) s'

theorem step_act {e : UploadEvent Image} (h : s.step p e = some s') : Act p s e s' := by
  cases e with
  | viewDidLoad product => cases h; exact .screen (by simp) _ _
  | notesChanged i notes => obtain ⟨vc, hvc, rfl⟩ := Option.map_eq_some_iff.mp h; exact .screen (by simp) _ _
  | imagePicked i image => obtain ⟨vc, hvc, rfl⟩ := Option.map_eq_some_iff.mp h; exact .screen (by simp) _ _
  | authChanged uid => cases h; exact .screen (by simp) _ _
  | nextButtonPressed i uuid =>
    simp only [Uploads.step] at h
    split at h
    · cases h
    · rename_i huuid
      obtain ⟨vc, hvc, rfl⟩ := Option.map_eq_some_iff.mp h
      unfold Uploads.nextButtonPressed
      cases hp : vc.product with
      | none => exact .screen (by simp) s.controllers s.currentUser
      | some finalProduct =>
        cases hdata : finalProduct.warrantyImage.bind p.jpegData with
        | none => simp only [hdata]; exact .screen (by simp) s.controllers s.currentUser
        | some data => simp only [hdata]; exact .started hvc hp hdata huuid
  | success k uuid =>
    obtain ⟨c, vc, hc, hvc, huuid, h⟩ := step_success h
    exact .hop hc hvc (succeed_hop huuid hvc h)
  | failure k =>
    obtain ⟨c, hc, h⟩ := Option.bind_eq_some_iff.mp h
    exact .stop hc (fail_stop h)

theorem step_change {e : UploadEvent Image} (h : s.step p e = some s') : Change p s s' := by
  cases step_act h with
  | screen => exact .screen _ _
  | started hvc hp hdata huuid => exact .started hvc hp hdata huuid
  | hop hc _ h => exact .hop hc h
  | stop hc h => exact .stop hc h

/-! ## Every name is the chain's own -/

/-- The last UUID a chain made. -/
def Stage.name : Stage Bytes → Option String
  | .putWarranty ref _ => some ref.name
  | .warrantyURL ref => some ref.name
  | .putProduct _ ref _ => some ref.name
  | .productURL _ ref => some ref.name
  | .setData id => some id
  | .productAdded id => some id
  | .performed id => some id
  | .ended => none

def Chain.name (c : Chain Image Bytes) : Option String := c.stage.name

def Uploads.names (s : Uploads Image Bytes) : List String := s.chains.filterMap Chain.name

theorem Stage.name_of_document {stage : Stage Bytes} {id : String} (h : stage.document = some id) :
    stage.name = some id := by
  cases stage with
  | setData | productAdded | performed => exact h
  | putWarranty | warrantyURL | putProduct | productURL | ended => cases h

def Renames (s s' : Uploads Image Bytes) (k : Nat) (c : Chain Image Bytes) : Prop :=
  ∃ stage, s'.chains = s.chains.set k { c with stage := stage } ∧
    (stage.name = c.stage.name ∧ s'.issued = s.issued ∨ stage.name = none ∧ s'.issued = s.issued ∨
      ∃ n, n ∉ s.issued ∧ stage.name = some n ∧ s'.issued = n :: s.issued ∧ c.stage.name.isSome)

theorem hop_renames (h : Hop p s k c s') : Renames s s' k c := by
  cases h with
  | @stored ref data stage h =>
    refine ⟨stage, rfl, .inl ⟨?_, rfl⟩⟩
    cases h' : c.stage <;> rw [h'] at h <;> cases h <;> rfl
  | named h _ _ _ huuid => exact ⟨_, rfl, .inr (.inr ⟨_, huuid, rfl, rfl, by rw [h]; rfl⟩)⟩
  | wrote _ h huuid =>
    refine ⟨_, rfl, .inr (.inr ⟨_, huuid, rfl, rfl, ?_⟩)⟩
    cases h' : c.stage <;> rw [h'] at h <;> cases h <;> rfl
  | acknowledged h => exact ⟨_, rfl, .inl ⟨by rw [h]; rfl, rfl⟩⟩
  | performed h => exact ⟨_, rfl, .inl ⟨by rw [h]; rfl, rfl⟩⟩
  | unencodable => exact ⟨_, rfl, .inr (.inl ⟨rfl, rfl⟩)⟩

theorem stop_renames (h : Stop s k c s') : Renames s s' k c := by
  cases h with
  | stopped _ => exact ⟨_, rfl, .inr (.inl ⟨rfl, rfl⟩)⟩
  | rolledBack _ => exact ⟨_, rfl, .inr (.inl ⟨rfl, rfl⟩)⟩

/-- The chains' names are UUIDs made since the launch, no two alike. -/
structure OwnNames (produts : Collection) (s : Uploads Image Bytes) : Prop where
  nodup : s.names.Nodup
  issued : ∀ n ∈ s.names, n ∈ s.issued ∧ n ∉ produts
  launched : ∀ id ∈ produts, id ∈ s.issued

theorem ownNames_cons {produts : Collection} {n : String} {names : List String} (ho : OwnNames produts s)
    (hn : n ∉ s.issued) (hs : s'.issued = n :: s.issued) (hnames : s'.names.Perm (n :: names))
    (hsub : names.Sublist s.names) : OwnNames produts s' := by
  refine ⟨hnames.nodup_iff.mpr (List.nodup_cons.mpr ⟨?_, ho.nodup.sublist hsub⟩), ?_, ?_⟩
  · exact fun h => hn (ho.issued n (hsub.subset h)).1
  · intro m hm
    rw [hs]
    rcases List.mem_cons.mp (hnames.subset hm) with rfl | hm
    · exact ⟨List.mem_cons_self, fun h => hn (ho.launched m h)⟩
    · have := ho.issued m (hsub.subset hm)
      exact ⟨List.mem_cons_of_mem _ this.1, this.2⟩
  · intro id hid
    rw [hs]
    exact List.mem_cons_of_mem _ (ho.launched id hid)

theorem ownNames_sublist {produts : Collection} (ho : OwnNames produts s) (hs : s'.issued = s.issued)
    {names names' : List String} (h : s.names.Perm names) (h' : s'.names.Perm names')
    (hsub : names'.Sublist names) :
    OwnNames produts s' := by
  refine ⟨h'.nodup_iff.mpr ((h.nodup_iff.mp ho.nodup).sublist hsub), fun n hn => ?_, fun id hid => ?_⟩
  · rw [hs]; exact ho.issued n (h.symm.subset (hsub.subset (h'.subset hn)))
  · rw [hs]; exact ho.launched id hid

theorem ownNames_renames {produts : Collection} (ho : OwnNames produts s) (hc : s.chains[k]? = some c)
    (h : Renames s s' k c) : OwnNames produts s' := by
  have hold : s.names.Perm _ := (Listing.perm_cons_eraseIdx hc).filterMap Chain.name
  obtain ⟨stage, hchains, hstage⟩ := h
  have hnew : s'.names.Perm _ := hchains ▸ (Listing.set_perm hc { c with stage := stage }).filterMap Chain.name
  rw [List.filterMap_cons, Chain.name] at hnew
  rcases hstage with ⟨hname, hissued⟩ | ⟨hname, hissued⟩ | ⟨n, hn, hname, hissued, -⟩
  · rw [hname] at hnew
    rw [List.filterMap_cons, Chain.name] at hold
    exact ownNames_sublist ho hissued hold hnew (List.Sublist.refl _)
  · rw [hname] at hnew
    exact ownNames_sublist ho hissued hold hnew ((List.sublist_cons_self _ _).filterMap _)
  · rw [hname] at hnew
    exact ownNames_cons ho hn hissued hnew ((List.eraseIdx_sublist s.chains k).filterMap _)

theorem ownNames_change {produts : Collection} (ho : OwnNames produts s) (h : Change p s s') :
    OwnNames produts s' := by
  cases h with
  | screen => exact ⟨ho.nodup, ho.issued, ho.launched⟩
  | started _ _ _ huuid =>
    refine ownNames_cons ho huuid rfl ?_ (List.Sublist.refl s.names)
    rw [Uploads.names, List.filterMap_append]
    exact List.perm_append_singleton _ _
  | hop hc h => exact ownNames_renames ho hc (hop_renames h)
  | stop hc h => exact ownNames_renames ho hc (stop_renames h)

theorem name_ne {produts : Collection} (ho : OwnNames produts s) (hc : s.chains[k]? = some c)
    {d : Chain Image Bytes} (hd : d ∈ s.chains.eraseIdx k) {n : String} (hn : c.name = some n) :
    d.name ≠ some n := by
  intro hdn
  have hnodup := ((Listing.perm_cons_eraseIdx hc).filterMap Chain.name).nodup_iff.mp ho.nodup
  rw [List.filterMap_cons, hn] at hnodup
  exact (List.nodup_cons.mp hnodup).1 (List.mem_filterMap.mpr ⟨d, hd, hdn⟩)

/-! ## The objects in storage -/

/-- Every stored object has a name made before; a chain stores where nothing is
stored, and asks for the URL of what is stored. -/
structure Stored (s : Uploads Image Bytes) : Prop where
  issued : ∀ ref ∈ s.storage, ref.name ∈ s.issued
  waiting : ∀ c ∈ s.chains, ∀ ref data stage, c.stage.Stores ref data stage → ref ∉ s.storage
  found : ∀ c ∈ s.chains, ∀ warantyUrl ref, c.stage = .productURL warantyUrl ref → ref ∈ s.storage

theorem stores_name {stage stage' : Stage Bytes} {ref : Ref} {data : Bytes} (h : stage.Stores ref data stage') :
    stage.name = some ref.name := by
  cases h <;> rfl

theorem not_stores {stage stage' : Stage Bytes} {ref : Ref} {data : Bytes}
    (h : stage.document.isSome ∨ stage = .ended) : ¬ stage.Stores ref data stage' := by
  rintro ⟨⟩ <;> rcases h with h | h <;> cases h

theorem ne_productURL {stage : Stage Bytes} {warantyUrl : String} {ref : Ref}
    (h : stage.document.isSome ∨ stage = .ended) : stage ≠ .productURL warantyUrl ref := by
  rintro rfl; rcases h with h | h <;> cases h

theorem stored_settled (hs : Stored s) (hc : s.chains[k]? = some c) (hstorage : s'.storage = s.storage)
    (hissued : s.issued ⊆ s'.issued) {stage : Stage Bytes}
    (hchains : s'.chains = s.chains.set k { c with stage := stage }) (h : stage.document.isSome ∨ stage = .ended) :
    Stored s' := by
  refine ⟨?_, ?_, ?_⟩
  · rw [hstorage]
    exact fun ref hr => hissued (hs.issued ref hr)
  · rw [hchains, hstorage]
    exact (Listing.forall_mem_set_iff hc _).mpr
      ⟨fun _ _ _ hst => absurd hst (not_stores h), ((Listing.forall_mem_iff hc).mp hs.waiting).2⟩
  · rw [hchains, hstorage]
    exact (Listing.forall_mem_set_iff hc _).mpr
      ⟨fun _ _ hst => absurd hst (ne_productURL h), ((Listing.forall_mem_iff hc).mp hs.found).2⟩

theorem stored_hop {produts : Collection} (ho : OwnNames produts s) (hs : Stored s) (hc : s.chains[k]? = some c)
    (h : Hop p s k c s') : Stored s' := by
  have hw := ((Listing.forall_mem_iff hc).mp hs.waiting).2
  have hf := ((Listing.forall_mem_iff hc).mp hs.found).2
  cases h with
  | @stored ref data stage h =>
    have hname := stores_name h
    refine ⟨?_, (Listing.forall_mem_set_iff hc _).mpr ⟨?_, ?_⟩, (Listing.forall_mem_set_iff hc _).mpr ⟨?_, ?_⟩⟩
    · intro r hr
      rcases (AList.mem_insert _).mp hr with rfl | hr
      · exact (ho.issued _ (List.mem_filterMap.mpr ⟨c, List.mem_of_getElem? hc, hname⟩)).1
      · exact hs.issued r hr
    · intro r data' stage' hst
      generalize c.stage = st at h
      cases h <;> cases hst
    · intro d hd r data' stage' hst hr
      rcases (AList.mem_insert _).mp hr with rfl | hr
      · exact name_ne ho hc hd hname (stores_name hst)
      · exact hw d hd r data' stage' hst hr
    · intro warantyUrl r hst
      obtain rfl : stage = _ := hst
      generalize c.stage = st at h
      cases h
      exact (AList.mem_insert _).mpr (.inl rfl)
    · exact fun d hd w r hst => (AList.mem_insert _).mpr (.inr (hf d hd w r hst))
  | @named vc ref image data uuid h hvc himage hdata huuid =>
    refine ⟨fun r hr => List.mem_cons_of_mem _ (hs.issued r hr), (Listing.forall_mem_set_iff hc _).mpr ⟨?_, hw⟩,
      (Listing.forall_mem_set_iff hc _).mpr ⟨?_, hf⟩⟩
    · intro r data' stage' hst hr
      cases hst
      exact huuid (hs.issued _ hr)
    · intro w r hst; cases hst
  | wrote => exact stored_settled hs hc rfl (List.subset_cons_self _ _) rfl (.inl rfl)
  | acknowledged => exact stored_settled hs hc rfl (List.Subset.refl _) rfl (.inl rfl)
  | performed => exact stored_settled hs hc rfl (List.Subset.refl _) rfl (.inl rfl)
  | unencodable => exact stored_settled hs hc rfl (List.Subset.refl _) rfl (.inr rfl)

theorem stored_change {produts : Collection} (ho : OwnNames produts s) (hs : Stored s) (h : Change p s s') :
    Stored s' := by
  cases h with
  | screen => exact ⟨hs.issued, hs.waiting, hs.found⟩
  | @started vc i finalProduct data uuid hvc hp hdata huuid =>
    refine ⟨fun r hr => List.mem_cons_of_mem _ (hs.issued r hr), Listing.forall_mem_snoc.mpr ⟨hs.waiting, ?_⟩,
      Listing.forall_mem_snoc.mpr ⟨hs.found, ?_⟩⟩
    · intro r data' stage' hst hr
      cases hst
      exact huuid (hs.issued _ hr)
    · intro w r hst; cases hst
  | hop hc h => exact stored_hop ho hs hc h
  | stop hc h =>
    cases h with
    | stopped => exact stored_settled hs hc rfl (List.Subset.refl _) rfl (.inr rfl)
    | rolledBack => exact stored_settled hs hc rfl (List.Subset.refl _) rfl (.inr rfl)

/-! ## The documents in the collection -/

/-- The collection is what it was at the launch and the chains' documents. -/
structure Written (produts : Collection) (s : Uploads Image Bytes) : Prop where
  issued : ∀ id ∈ s.produts, id ∈ s.issued
  documents : ∀ id, id ∈ s.produts ↔ id ∈ produts ∨ ∃ c ∈ s.chains, c.document = some id

theorem written_same {produts : Collection} (hw : Written produts s) (hc : s.chains[k]? = some c)
    (hprodut : s'.produts = s.produts) (hissued : s.issued ⊆ s'.issued) {stage : Stage Bytes}
    (hchains : s'.chains = s.chains.set k { c with stage := stage }) (h : stage.document = c.document) :
    Written produts s' := by
  refine ⟨?_, fun id => ?_⟩
  · rw [hprodut]
    exact fun id hid => hissued (hw.issued id hid)
  · rw [hprodut, hchains, Listing.exists_mem_set_iff hc, hw.documents id, Listing.exists_mem_iff hc]
    show _ ↔ _ ∨ stage.document = some id ∨ _
    rw [h]

theorem document_name {d : Chain Image Bytes} {id : String} (h : d.document = some id) : d.name = some id :=
  Stage.name_of_document h

theorem document_of_calls {vc : OptionalDataVC Image} {warrantyUrl productUrl : String}
    (h : c.stage.Calls p vc warrantyUrl productUrl) : c.document = none := by
  unfold Chain.document
  generalize c.stage = st at h
  cases h <;> rfl

theorem written_hop {produts : Collection} (hw : Written produts s) (hc : s.chains[k]? = some c)
    (h : Hop p s k c s') : Written produts s' := by
  cases h with
  | @stored ref data stage h =>
    refine written_same hw hc rfl (List.Subset.refl _) rfl ?_
    unfold Chain.document
    generalize c.stage = st at h
    cases h <;> rfl
  | named h =>
    exact written_same hw hc rfl (List.subset_cons_self _ _) rfl (by simp [Chain.document, Stage.document, h])
  | @wrote vc warrantyUrl productUrl uuid hvc h huuid =>
    refine ⟨fun id hid => ?_, fun id => ?_⟩
    · rcases (AList.mem_insert _).mp hid with rfl | hid
      · exact List.mem_cons_self
      · exact List.mem_cons_of_mem _ (hw.issued id hid)
    · apply (AList.mem_insert _).trans
      show _ ↔ _ ∨ ∃ d ∈ s.chains.set k _, _
      rw [hw.documents id, Listing.exists_mem_iff hc, Listing.exists_mem_set_iff hc, document_of_calls h]
      show _ ↔ _ ∨ some uuid = some id ∨ _
      grind
  | acknowledged h =>
    exact written_same hw hc rfl (List.Subset.refl _) rfl (by simp [Chain.document, Stage.document, h])
  | performed h =>
    exact written_same hw hc rfl (List.Subset.refl _) rfl (by simp [Chain.document, Stage.document, h])
  | unencodable h =>
    exact written_same hw hc rfl (List.Subset.refl _) rfl (by simp [Chain.document, Stage.document, h])

theorem written_stop {produts : Collection} (ho : OwnNames produts s) (hw : Written produts s)
    (hc : s.chains[k]? = some c) (h : Stop s k c s') : Written produts s' := by
  cases h with
  | stopped h => exact written_same hw hc rfl (List.Subset.refl _) rfl h.symm
  | @rolledBack id h =>
    have hid : c.document = some id := by simp [Chain.document, Stage.document, h]
    refine ⟨fun id' hid' => hw.issued id' (AList.mem_erase.mp hid').2, fun id' => ?_⟩
    apply AList.mem_erase.trans
    show _ ↔ _ ∨ ∃ d ∈ s.chains.set k _, _
    rw [hw.documents id', Listing.exists_mem_iff hc, Listing.exists_mem_set_iff hc, hid]
    have hne : ∀ d ∈ s.chains.eraseIdx k, d.document ≠ some id :=
      fun d hd h' => name_ne ho hc hd (document_name hid) (document_name h')
    have hnew := (ho.issued id (List.mem_filterMap.mpr ⟨c, List.mem_of_getElem? hc, document_name hid⟩)).2
    show _ ↔ _ ∨ none = some id' ∨ _
    grind

theorem written_change {produts : Collection} (ho : OwnNames produts s) (hw : Written produts s)
    (h : Change p s s') :
    Written produts s' := by
  cases h with
  | screen => exact ⟨hw.issued, hw.documents⟩
  | started =>
    refine ⟨fun id hid => List.mem_cons_of_mem _ (hw.issued id hid), fun id => ?_⟩
    rw [hw.documents id]
    simp [Chain.document, Stage.document, or_and_right, exists_or]
  | hop hc h => exact written_hop hw hc h
  | stop hc h => exact written_stop ho hw hc h

structure Inv (produts : Collection) (s : Uploads Image Bytes) : Prop where
  names : OwnNames produts s
  storage : Stored s
  collection : Written produts s

theorem inv_launch (storage : Storage Bytes) (produts : Collection) (currentUser : Option String) :
    Inv produts (launch storage produts currentUser : Uploads Image Bytes) := by
  have hissued : ∀ id ∈ produts, id ∈ (launch storage produts currentUser : Uploads Image Bytes).issued :=
    fun id hid => List.mem_append_right _ hid
  refine ⟨⟨List.nodup_nil, ?_, hissued⟩, ⟨?_, ?_, ?_⟩, ⟨hissued, ?_⟩⟩
  · intro n hn; cases hn
  · exact fun ref hr => List.mem_append_left _ (List.mem_map_of_mem hr)
  · intro c hc; cases hc
  · intro c hc; cases hc
  · simp [launch]

theorem inv_step {produts : Collection} {e : UploadEvent Image} (hi : Inv produts s) (h : s.step p e = some s') :
    Inv produts s' := by
  have hch := step_change h
  exact ⟨ownNames_change hi.names hch, stored_change hi.names hi.storage hch,
    written_change hi.names hi.collection hch⟩

end

end WarrantyGuard
